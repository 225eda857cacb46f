import BeanCatalog.Proofs.Registry.Uses

namespace BeanCatalog

namespace Table

variable {α : Type} {t : Table α} {k : String} {v : α}

theorem put_same (h : t.get? k = some v) : t.put k v = t := by
  induction t with
  | nil => cases h
  | cons p t ih =>
    obtain ⟨a, b⟩ := p
    rw [get?_cons] at h
    rw [put]
    split at h
    next he => rw [if_pos he, he, Option.some.inj h]
    next he => rw [if_neg he, ih h]

theorem erase_absent (h : t.get? k = none) : t.erase k = t := by
  induction t with
  | nil => rfl
  | cons p t ih =>
    obtain ⟨a, b⟩ := p
    rw [get?_cons] at h
    rw [erase]
    split at h
    · cases h
    next he => rw [if_neg he, ih h]

end Table

namespace Registry

variable {δ : Type}

/-- What the call would set is there already: the definition, the target of the alias or, for an alias
of itself, no target. -/
inductive Idle (r : Registry δ) : RegistryCall δ → Prop
  | define {name : String} {d : δ} (h : r.definitions.get? name = some d) : Idle r (.define name d)
  | points {name alt : String} (hne : alt ≠ name) (h : Points r.aliases alt name) :
      Idle r (.addAlias name alt)
  | free {name : String} (h : r.aliases.get? name = none) : Idle r (.addAlias name name)

variable {r r' : Registry δ} {name alt : String} {d : δ} {c : RegistryCall δ}
  {cs : List (RegistryCall δ)} {aliases : List String}

theorem Idle.call_same (h : r.Idle c) (hc : r.call c = .ok r') : r' = r := by
  cases h with
  | @define name d hd =>
    obtain ⟨-, -, rfl⟩ := define_ok hc
    rw [Table.put_same hd]
  | @points name alt hne hp =>
    obtain ⟨-, ⟨he, -⟩ | ⟨-, -, rfl⟩ | ⟨-, -, -, rfl⟩⟩ := addAlias_ok hc
    · exact absurd he hne
    · rfl
    · rw [Table.put_same hp]
  | @free name hf =>
    obtain ⟨-, ⟨-, rfl⟩ | ⟨hne, -⟩ | ⟨hne, -⟩⟩ := addAlias_ok hc
    · rw [Table.erase_absent hf]
    all_goals exact absurd rfl hne

theorem call_idle (hc : r.call c = .ok r') : r'.Idle c := by
  cases c with
  | define name d =>
    obtain ⟨-, -, rfl⟩ := define_ok hc
    exact .define (by rw [Table.get?_put, if_pos rfl])
  | addAlias name alt =>
    obtain ⟨-, ⟨rfl, rfl⟩ | ⟨hne, hp, rfl⟩ | ⟨hne, -, -, rfl⟩⟩ := addAlias_ok hc
    · exact .free (by rw [Table.get?_erase, if_pos rfl])
    · exact .points hne hp
    · exact .points hne (points_put.mpr (.inl ⟨rfl, rfl⟩))

theorem Idle.addAlias (h : r.Idle c) (hname : ∀ x y, c = .addAlias x y → x = name)
    (hc : r.addAlias name alt = .ok r') : r'.Idle c := by
  obtain ⟨-, ⟨rfl, rfl⟩ | ⟨-, -, rfl⟩ | ⟨hne, -, -, rfl⟩⟩ := addAlias_ok hc
  · cases h with
    | define hd => exact .define hd
    | @points x y hxy hp =>
      obtain rfl := hname x y rfl
      refine .points hxy ?_
      rwa [Points, Table.get?_erase, if_neg hxy]
    | @free x hf =>
      obtain rfl := hname x x rfl
      exact .free (by rw [Table.get?_erase, if_pos rfl])
  · exact h
  · cases h with
    | define hd => exact .define hd
    | @points x y hxy hp =>
      obtain rfl := hname x y rfl
      refine .points hxy (points_put.mpr ?_)
      by_cases hy : y = alt
      · exact .inl ⟨hy, rfl⟩
      · exact .inr ⟨hy, hp⟩
    | @free x hf =>
      obtain rfl := hname x x rfl
      exact .free (by rwa [Table.get?_put, if_neg (Ne.symm hne)])

theorem Idle.afterAliases (h : r.Idle c) (hname : ∀ x y, c = .addAlias x y → x = name) :
    (r.afterCalls (aliases.map (.addAlias name))).Idle c := by
  apply afterAliases_induct (P := fun q => q.Idle c) (fun alt _ q q' hq hc => ?_) h
  exact hq.addAlias hname hc

theorem accepted_cons (h : (r.calls (fun _ _ => false) (c :: cs)).refusal = none) :
    ∃ next, r.call c = .ok next ∧ (next.calls (fun _ _ => false) cs).refusal = none := by
  cases hc : r.call c with
  | error refusal =>
    simp only [calls, hc] at h
    cases h
  | ok next =>
    simp only [calls, hc] at h
    exact ⟨next, rfl, h⟩

theorem accepted_aliases_idle
    (h : (r.calls (fun _ _ => false) (aliases.map (.addAlias name))).refusal = none)
    (hm : c ∈ aliases.map (.addAlias name)) :
    (r.afterCalls (aliases.map (.addAlias name))).Idle c := by
  induction aliases generalizing r with
  | nil => cases hm
  | cons alt aliases ih =>
    obtain ⟨next, hc, hrest⟩ := accepted_cons h
    rw [List.map_cons, afterCalls_ok hc]
    rcases List.mem_cons.mp hm with rfl | hm
    · refine (call_idle hc).afterAliases fun x y he => ?_
      cases he
      rfl
    · exact ih hrest hm

theorem accepted_holder_idle
    (h : (r.calls (fun _ _ => false) (RegistryCall.all name d aliases)).refusal = none)
    (hm : c ∈ RegistryCall.all name d aliases) :
    (r.afterCalls (RegistryCall.all name d aliases)).Idle c := by
  obtain ⟨next, hc, hrest⟩ := accepted_cons h
  rw [RegistryCall.all, afterCalls_ok hc]
  rcases List.mem_cons.mp hm with rfl | hm
  · refine (call_idle hc).afterAliases fun x y he => ?_
    cases he
  · exact accepted_aliases_idle hrest hm

theorem afterCalls_idle (h : ∀ c ∈ cs, r.Idle c) : r.afterCalls cs = r := by
  apply afterCalls_induct (P := fun q => q = r) (fun c hm q q' hq hc => ?_) rfl
  subst hq
  exact (h c hm).call_same hc

theorem refused_splits {refusal : Refusal}
    (h : (r.calls (fun _ _ => false) cs).refusal = some refusal) :
    ∃ front c back, cs = front ++ c :: back ∧ (r.calls (fun _ _ => false) front).refusal = none ∧
      (r.afterCalls front).call c = .error refusal ∧ r.afterCalls cs = r.afterCalls front := by
  induction cs generalizing r with
  | nil => cases h
  | cons c cs ih =>
    cases hc : r.call c with
    | error refusal' =>
      simp only [calls, hc, Option.some.injEq] at h
      subst h
      exact ⟨[], c, cs, rfl, rfl, hc, afterCalls_error hc⟩
    | ok next =>
      simp only [calls, hc] at h
      obtain ⟨front, c', back, rfl, hnone, hrefused, hafter⟩ := ih h
      refine ⟨c :: front, c', back, rfl, ?_, ?_, ?_⟩
      · simp only [calls, hc]
        exact hnone
      · rwa [afterCalls_ok hc]
      · rw [afterCalls_ok hc, afterCalls_ok hc, hafter]

theorem holder_front {front back : List (RegistryCall δ)}
    (h : RegistryCall.all name d aliases = front ++ back) :
    front = [] ∨ ∃ earlier, front = RegistryCall.all name d earlier := by
  cases front with
  | nil => exact .inl rfl
  | cons f front =>
    obtain ⟨rfl, hmap⟩ := List.cons.inj h
    obtain ⟨earlier, -, -, rfl, -⟩ := List.map_eq_append_iff.mp hmap
    exact .inr ⟨earlier, rfl⟩

/-- A refused holder leaves what it registered up to the refused call, which is the registry as it was
just when all of that was there before. -/
theorem refused_holder_unchanged_iff (overriding : Bool) (uses : List (RegistryUse δ)) (name : String)
    (d : δ) (aliases : List String) (refusal : Refusal) :
    let r := ({ allowOverriding := overriding } : Registry δ).performAll uses
    let cs := RegistryCall.all name d aliases
    (r.calls (fun _ _ => false) cs).refusal = some refusal →
      ∃ front c back, cs = front ++ c :: back ∧ (r.calls (fun _ _ => false) front).refusal = none ∧
        (r.afterCalls front).call c = .error refusal ∧
        r.perform (.holder name d aliases) = r.afterCalls front ∧
        (r.perform (.holder name d aliases) = r ↔ ∀ c ∈ front, r.Idle c) := by
  intro r cs h
  obtain ⟨front, c, back, hcs, hnone, hrefused, hafter⟩ := refused_splits h
  have hperform : r.perform (.holder name d aliases) = r.afterCalls front := hafter
  refine ⟨front, c, back, hcs, hnone, hrefused, hperform, ?_⟩
  rw [hperform]
  constructor
  · intro hsame c hm
    rcases holder_front hcs with rfl | ⟨earlier, rfl⟩
    · cases hm
    · have hidle := accepted_holder_idle hnone hm
      rwa [hsame] at hidle
  · exact afterCalls_idle

end Registry

def takenUses : List (RegistryUse Definition) :=
  [.allow false, .call (.addAlias "z" "y")]

theorem takenUses_holder_stays :
    let r := ({} : Registry Definition).performAll takenUses
    (r.calls (fun _ _ => false) (RegistryCall.all "x" {} ["w", "y"])).refusal =
        some (.aliasTaken "y" "x" "z") ∧
      r.definitions = [] ∧ r.aliases = [("y", "z")] ∧
      (r.perform (.holder "x" {} ["w", "y"])).definitions = [("x", {})] ∧
      (r.perform (.holder "x" {} ["w", "y"])).aliases = [("y", "z"), ("w", "x")] :=
  ⟨rfl, rfl, rfl, rfl, rfl⟩

theorem takenUses_holder_changes :
    let r := ({} : Registry Definition).performAll takenUses
    (r.calls (fun _ _ => false) (RegistryCall.all "x" {} ["w", "y"])).refusal =
        some (.aliasTaken "y" "x" "z") ∧
      r.perform (.holder "x" {} ["w", "y"]) ≠ r := by
  intro r
  have hrefused : (r.calls (fun _ _ => false) (RegistryCall.all "x" {} ["w", "y"])).refusal =
      some (.aliasTaken "y" "x" "z") := rfl
  refine ⟨hrefused, fun hsame => ?_⟩
  obtain ⟨front, c, back, hcs, hnone, hcall, -, hiff⟩ :=
    Registry.refused_holder_unchanged_iff true takenUses "x" {} ["w", "y"] _ hrefused
  rcases Registry.holder_front hcs with rfl | ⟨earlier, rfl⟩
  · obtain ⟨rfl, -⟩ := List.cons.inj hcs
    cases hcall
  · have hidle := hiff.mp hsame (.define "x" {}) List.mem_cons_self
    cases hidle with
    | define hd => cases hd

end BeanCatalog
