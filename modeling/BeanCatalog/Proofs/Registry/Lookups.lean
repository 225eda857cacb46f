import BeanCatalog.Proofs.Registry.Repointing

namespace BeanCatalog

structure RegistryUse.Plain {δ : Type} (u : RegistryUse δ) : Prop where
  registers (overriding : Bool) : u ≠ .allow overriding
  distinct {name alt : String} : .addAlias name alt ∈ u.calls → alt ≠ name

namespace Registry

variable {δ : Type}

/-- The call is accepted, and its alias stands for a definition that its name does not stand for. -/
inductive Hides (r : Registry δ) : RegistryCall δ → Prop
  | intro {name alt : String} {r' : Registry δ} {d : δ} (hc : r.addAlias name alt = .ok r')
      (hd : r.get? alt = some d) (hn : r.get? name ≠ some d) : Hides r (.addAlias name alt)

def HidesIn (r : Registry δ) (cs : List (RegistryCall δ)) : Prop :=
  ∃ front c back, cs = front ++ c :: back ∧ (r.calls (fun _ _ => false) front).refusal = none ∧
    (r.afterCalls front).Hides c

def Keeps (r r' : Registry δ) : Prop := ∀ name d, r.get? name = some d → r'.get? name = some d

variable {r r' : Registry δ} {name alt x y : String} {d e : δ} {c : RegistryCall δ}
  {cs front back : List (RegistryCall δ)}

theorem addAlias_strict (ho : r.allowOverriding = false) (hne : alt ≠ name)
    (hc : r.addAlias name alt = .ok r') : r.aliases.get? alt = some name ∧ r' = r ∨
      r.aliases.get? alt = none ∧ r' = { r with aliases := r.aliases.put alt name } := by
  obtain ⟨-, ⟨hs, -⟩ | ⟨-, hp, rfl⟩ | ⟨-, hfree, -, rfl⟩⟩ := addAlias_ok hc
  · exact absurd hs hne
  · exact .inl ⟨hp, rfl⟩
  · exact .inr ⟨hfree.resolve_left (by simp [ho]), rfl⟩

theorem Sound.keeps_addAlias_iff (h : r.Sound) (ho : r.allowOverriding = false) (hne : alt ≠ name)
    (hc : r.addAlias name alt = .ok r') :
    r.Keeps r' ↔ ∀ d, r.get? alt = some d → r.get? name = some d := by
  have h' := h.addAlias hc
  rcases addAlias_strict ho hne hc with ⟨hp, rfl⟩ | ⟨hg, rfl⟩
  · have hsame : r'.get? alt = r'.get? name := by rw [get?, h.canonical_of_points hp, get?]
    rw [hsame]
    exact ⟨fun _ _ hd => hd, fun _ _ _ hd => hd⟩
  · have hput : ∀ x, get? { r with aliases := r.aliases.put alt name } x =
        if r.canonical x = alt then r.get? name else r.get? x := by
      intro x
      have hs := addAlias_sameBeside hc
      unfold get?
      split
      next he =>
        have hx := (h.reaches_free_iff hg).mpr he
        rw [h'.canonical_through hs hx, h.canonical_alt hc, if_neg hne]
      next he => rw [h.canonical_beside h' hs (mt (h.reaches_free_iff hg).mp he)]
    have halt : r.canonical alt = alt := h.canonical_of_free hg
    constructor
    · intro hk d hd
      have hnew := hk alt d hd
      rwa [hput, if_pos halt] at hnew
    · intro hd x d hx
      rw [hput]
      split
      next he =>
        apply hd
        rwa [get?, halt, ← he]
      next => exact hx

theorem Sound.keeps_call_iff (h : r.Sound) (ho : r.allowOverriding = false)
    (hne : ∀ name alt, c = .addAlias name alt → alt ≠ name) (hc : r.call c = .ok r') :
    r.Keeps r' ↔ ¬ r.Hides c := by
  cases c with
  | define name d =>
    obtain ⟨-, hfree, rfl⟩ := define_ok hc
    have hnew : r.definitions.has name = false := hfree.resolve_left (by simp [ho])
    refine ⟨?_, fun _ x e hx => ?_⟩
    · rintro - ⟨⟩
    have hold : r.definitions.get? (r.canonical x) = some e := hx
    change (r.definitions.put name d).get? (r.canonical x) = some e
    rw [Table.get?_put]
    split
    next he => simp [Table.has, ← he, hold] at hnew
    next => exact hold
  | addAlias name alt =>
    rw [h.keeps_addAlias_iff ho (hne name alt rfl) hc]
    constructor
    · rintro hk ⟨-, hd, hn⟩
      exact hn (hk _ hd)
    · intro hh d hd
      by_contra hn
      exact hh (.intro hc hd hn)

theorem call_allowOverriding (hc : r.call c = .ok r') : r'.allowOverriding = r.allowOverriding := by
  cases c with
  | define name d =>
    obtain ⟨-, -, rfl⟩ := define_ok hc
    rfl
  | addAlias name alt =>
    obtain ⟨-, ⟨-, rfl⟩ | ⟨-, -, rfl⟩ | ⟨-, -, -, rfl⟩⟩ := addAlias_ok hc <;> rfl

theorem HidesIn.cons (hc : r.call c = .ok r') (h : r'.HidesIn cs) : r.HidesIn (c :: cs) := by
  obtain ⟨front, c', back, rfl, hr, hh⟩ := h
  refine ⟨c :: front, c', back, rfl, ?_, ?_⟩
  · simp only [calls, hc]
    exact hr
  · rwa [afterCalls_ok hc]

theorem Sound.keeps_afterCalls (h : r.Sound) (ho : r.allowOverriding = false)
    (hne : ∀ name alt, .addAlias name alt ∈ cs → alt ≠ name) (hh : ¬ r.HidesIn cs) :
    r.Keeps (r.afterCalls cs) := by
  induction cs generalizing r with
  | nil => exact fun _ _ hd => hd
  | cons c cs ih =>
    cases hc : r.call c with
    | error refusal =>
      rw [afterCalls_error hc]
      exact fun _ _ hd => hd
    | ok r' =>
      have hfirst : ¬ r.Hides c := fun hc' => hh ⟨[], c, cs, rfl, rfl, hc'⟩
      have hne' : ∀ name alt, c = .addAlias name alt → alt ≠ name :=
        fun name alt he => hne name alt (he ▸ List.mem_cons_self)
      have hstep := (h.keeps_call_iff ho hne' hc).mpr hfirst
      have hrest : r'.Keeps (r'.afterCalls cs) := by
        apply ih (h.call hc) ((call_allowOverriding hc).trans ho)
        · exact fun name alt hm => hne name alt (List.mem_cons_of_mem c hm)
        · exact fun hin => hh (hin.cons hc)
      rw [afterCalls_ok hc]
      exact fun x d hx => hrest x d (hstep x d hx)

theorem afterCalls_append (h : (r.calls (fun _ _ => false) front).refusal = none) :
    r.afterCalls (front ++ back) = (r.afterCalls front).afterCalls back := by
  induction front generalizing r with
  | nil => rfl
  | cons c front ih =>
    cases hc : r.call c with
    | error refusal =>
      simp only [calls, hc] at h
      cases h
    | ok r' =>
      simp only [calls, hc] at h
      rw [List.cons_append, afterCalls_ok hc, afterCalls_ok hc]
      exact ih h

structure Tied (alt name : String) (found : Option δ) (r : Registry δ) : Prop where
  sound : r.Sound
  strict : r.allowOverriding = false
  points : Points r.aliases alt name
  lookup : r.get? name = found

theorem Sound.tied_addAlias (h : r.Sound) (ho : r.allowOverriding = false) (hne : alt ≠ name)
    (hc : r.addAlias name alt = .ok r') : Tied alt name (r.get? name) r' := by
  have h' := h.addAlias hc
  have ho' : r'.allowOverriding = false := (call_allowOverriding (c := .addAlias name alt) hc).trans ho
  rcases addAlias_strict ho hne hc with ⟨hp, rfl⟩ | ⟨-, rfl⟩
  · exact ⟨h, ho, hp, rfl⟩
  · refine ⟨h', ho', points_put.mpr (.inl ⟨rfl, rfl⟩), ?_⟩
    rw [get?, h.canonical_name hne hc, get?]

theorem Tied.addAlias {found : Option δ} (h : Tied alt name found r) (hne : y ≠ name)
    (hc : r.addAlias name y = .ok r') : Tied alt name found r' := by
  have hy := h.sound.tied_addAlias h.strict hne hc
  refine ⟨hy.sound, hy.strict, ?_, hy.lookup.trans h.lookup⟩
  rcases addAlias_strict h.strict hne hc with ⟨-, rfl⟩ | ⟨hg, rfl⟩
  · exact h.points
  · have halt : alt ≠ y := by
      rintro rfl
      cases hg.symm.trans h.points
    exact points_put.mpr (.inr ⟨halt, h.points⟩)

theorem Tied.get?_alias {found : Option δ} (h : Tied alt name found r) : r.get? alt = found := by
  rw [← h.lookup, get?, h.sound.canonical_of_points h.points, get?]

structure Grown (r : Registry δ) (name : String) (q : Registry δ) : Prop
    extends AlikeBut r name q where
  strict : q.allowOverriding = false
  points {x y : String} : Points r.aliases x y → Points q.aliases x y

theorem Grown.define {q q' : Registry δ} (h : Grown r name q) (hc : q.define name d = .ok q') :
    Grown r name q' := by
  have halike := h.toAlikeBut.define hc
  obtain ⟨-, -, rfl⟩ := define_ok hc
  exact ⟨halike, h.strict, h.points⟩

theorem Grown.addAlias {q q' : Registry δ} (h : Grown r name q) (hne : alt ≠ name)
    (hc : q.addAlias name alt = .ok q') : Grown r name q' := by
  have halike := h.toAlikeBut.addAlias hc
  rcases addAlias_strict h.strict hne hc with ⟨-, rfl⟩ | ⟨hg, rfl⟩
  · exact h
  · refine ⟨halike, h.strict, fun {x y} hp => ?_⟩
    have hold := h.points hp
    have hx : x ≠ alt := by
      rintro rfl
      cases hg.symm.trans hold
    exact points_put.mpr (.inr ⟨hx, hold⟩)

theorem Grown.get?_free {q : Registry δ} (h : Grown r name q) (hr : r.Sound) (hne : alt ≠ name)
    (hg : q.aliases.get? alt = none) : q.get? alt = r.get? alt := by
  have hfree : r.aliases.get? alt = none := by
    cases hp : r.aliases.get? alt with
    | none => rfl
    | some next => cases hg.symm.trans (h.points hp)
  rw [get?, get?, h.sound.canonical_of_free hg, hr.canonical_of_free hfree, h.definitions hne]

section

variable {aliases : List String}

theorem Tied.afterAliases {found : Option δ} (h : Tied alt name found r)
    (hne : ∀ y ∈ aliases, y ≠ name) :
    Tied alt name found (r.afterCalls (aliases.map (.addAlias name))) := by
  apply afterAliases_induct (fun y hy q q' hq hc => ?_) h
  exact hq.addAlias (hne y hy) hc

theorem Sound.grown_holder (h : r.Sound) (ho : r.allowOverriding = false)
    (hne : ∀ alt ∈ aliases, alt ≠ name) :
    Grown r name (r.afterCalls (RegistryCall.all name d aliases)) := by
  apply afterHolder_induct (P := Grown r name) _ _ ⟨⟨h, fun _ => rfl⟩, ho, id⟩
  · exact fun _ _ hq hc => hq.define hc
  · exact fun alt ha _ _ hq hc => hq.addAlias (hne alt ha) hc

theorem HidesIn.by_alias (h : r.HidesIn (RegistryCall.all name d aliases)) :
    ∃ first alt rest, aliases = first ++ alt :: rest ∧
      (r.calls (fun _ _ => false) (RegistryCall.all name d first)).refusal = none ∧
      (r.afterCalls (RegistryCall.all name d first)).Hides (.addAlias name alt) := by
  obtain ⟨front, c, back, he, hr, hh⟩ := h
  cases front with
  | nil =>
    obtain ⟨rfl, -⟩ := List.cons.inj he
    cases hh
  | cons f front =>
    obtain ⟨rfl, hmap⟩ := List.cons.inj he
    obtain ⟨first, others, rfl, rfl, hothers⟩ := List.map_eq_append_iff.mp hmap
    obtain ⟨alt, rest, rfl, rfl, -⟩ := List.map_eq_cons_iff.mp hothers
    exact ⟨first, alt, rest, rfl, hr, hh⟩

theorem Sound.holder_hides (h : r.Sound) (ho : r.allowOverriding = false)
    (hne : ∀ alt ∈ aliases, alt ≠ name) (hh : r.HidesIn (RegistryCall.all name d aliases)) :
    ¬ r.Keeps (r.afterCalls (RegistryCall.all name d aliases)) := by
  obtain ⟨first, alt, rest, rfl, hr, hh⟩ := hh.by_alias
  have halt : alt ≠ name := hne alt (by simp)
  have hgrown : Grown r name (r.afterCalls (RegistryCall.all name d first)) :=
    h.grown_holder ho fun y hy => hne y (List.mem_append_left _ hy)
  cases hh with
  | @intro _ _ after e hc hd hn =>
    have hcall : (r.afterCalls (RegistryCall.all name d first)).call (.addAlias name alt) =
        .ok after := hc
    have hall : RegistryCall.all name d (first ++ alt :: rest) =
        RegistryCall.all name d first ++ .addAlias name alt :: rest.map (.addAlias name) := by
      simp [RegistryCall.all]
    have htied : Tied alt name ((r.afterCalls (RegistryCall.all name d first)).get? name)
        (r.afterCalls (RegistryCall.all name d (first ++ alt :: rest))) := by
      rw [hall, afterCalls_append hr, afterCalls_ok hcall]
      exact (hgrown.sound.tied_addAlias hgrown.strict halt hc).afterAliases fun y hy =>
        hne y (by simp [hy])
    rcases addAlias_strict hgrown.strict halt hc with ⟨hp, -⟩ | ⟨hg, -⟩
    · rw [get?, hgrown.sound.canonical_of_points hp, ← get?] at hd
      exact absurd hd hn
    · intro hk
      have hafter := hk alt e ((hgrown.get?_free h halt hg).symm.trans hd)
      rw [htied.get?_alias] at hafter
      exact hn hafter

end

theorem Sound.keeps_perform_iff {u : RegistryUse δ} (h : r.Sound) (ho : r.allowOverriding = false)
    (hu : u.Plain) : r.Keeps (r.perform u) ↔ ¬ r.HidesIn u.calls := by
  cases u with
  | allow overriding => exact absurd rfl (hu.registers overriding)
  | call c =>
    refine ⟨?_, h.keeps_afterCalls ho fun name alt => hu.distinct⟩
    rintro hk ⟨front, c', back, he, -, hh⟩
    obtain ⟨rfl, rfl⟩ : front = [] ∧ c' = c := by
      cases front with
      | nil => exact ⟨rfl, (List.cons.inj he).1.symm⟩
      | cons f front => simp [RegistryUse.calls] at he
    obtain ⟨r', hc⟩ : ∃ r', r.call c' = .ok r' := by
      cases hh with
      | intro hc => exact ⟨_, hc⟩
    have hne : ∀ name alt, c' = .addAlias name alt → alt ≠ name :=
      fun name alt he => hu.distinct (he ▸ List.mem_cons_self)
    have hafter : r.perform (.call c') = r' := afterCalls_ok hc
    rw [hafter] at hk
    exact (h.keeps_call_iff ho hne hc).mp hk hh
  | holder name d aliases =>
    refine ⟨fun hk hh => h.holder_hides ho ?_ hh hk, h.keeps_afterCalls ho fun name alt => hu.distinct⟩
    intro alt hm
    exact hu.distinct (List.mem_cons_of_mem _ (List.mem_map.mpr ⟨alt, hm, rfl⟩))

theorem performAll_take (r : Registry δ) (uses : List (RegistryUse δ)) (i : Nat) :
    r.performAll (uses.take (i + 1)) =
      match uses[i]? with
      | some u => (r.performAll (uses.take i)).perform u
      | none => r.performAll (uses.take i) := by
  rw [List.take_add_one, performAll, List.foldl_append]
  cases uses[i]? <;> rfl

theorem perform_strict {u : RegistryUse δ} (ho : r.allowOverriding = false)
    (hu : ∀ overriding, u ≠ .allow overriding) : (r.perform u).allowOverriding = false := by
  have hcalls : ∀ cs : List (RegistryCall δ), (r.afterCalls cs).allowOverriding = false := by
    intro cs
    exact afterCalls_induct (fun _ _ _ _ hq hc => (call_allowOverriding hc).trans hq) ho
  cases u with
  | allow overriding => exact absurd rfl (hu overriding)
  | call c => exact hcalls _
  | holder name d aliases => exact hcalls _

theorem performAll_strict {uses : List (RegistryUse δ)} (hu : ∀ u ∈ uses, u.Plain)
    (ho : r.allowOverriding = false) : (r.performAll uses).allowOverriding = false := by
  induction uses generalizing r with
  | nil => exact ho
  | cons u uses ih =>
    apply ih (fun v hv => hu v (List.mem_cons_of_mem u hv))
    exact perform_strict ho (hu u List.mem_cons_self).registers

/-- Lookups last through a run where nothing may be overridden just when no alias that the run makes
stands for a definition already, except of a name that stands for it too. -/
theorem lookups_last_iff (uses : List (RegistryUse δ)) (hu : ∀ u ∈ uses, u.Plain) :
    let after i := ({ allowOverriding := false } : Registry δ).performAll (uses.take i)
    (∀ i j name d, i ≤ j → (after i).get? name = some d → (after j).get? name = some d) ↔
      ∀ i u, uses[i]? = some u → ¬ (after i).HidesIn u.calls := by
  intro after
  have hsound : ∀ i, (after i).Sound := fun i => (Sound.empty false).performAll _
  have hstrict : ∀ i, (after i).allowOverriding = false := fun i =>
    performAll_strict (fun u hm => hu u (List.mem_of_mem_take hm)) rfl
  have hstep : ∀ i u, uses[i]? = some u →
      ((after i).Keeps (after (i + 1)) ↔ ¬ (after i).HidesIn u.calls) := by
    intro i u hi
    have hnext : after (i + 1) = (after i).perform u := by
      simp only [after, performAll_take, hi]
    rw [hnext]
    exact (hsound i).keeps_perform_iff (hstrict i) (hu u (List.mem_of_getElem? hi))
  constructor
  · intro hlast i u hi
    exact (hstep i u hi).mp fun name d => hlast i (i + 1) name d (Nat.le_succ i)
  · intro hh i j name d hij hd
    induction j, hij using Nat.le_induction with
    | base => exact hd
    | succ j _ ih =>
      cases hj : uses[j]? with
      | some u => exact (hstep j u hj).mpr (hh j u hj) name d ih
      | none =>
        have hsame : after (j + 1) = after j := by simp only [after, performAll_take, hj]
        rwa [hsame]

end Registry

def hidingUses : List (RegistryUse Definition) :=
  [.call (.define "a" { className := some "A" }), .call (.addAlias "b" "a")]

theorem hidingUses_plain : ∀ u ∈ hidingUses, u.Plain := by
  intro u hm
  rcases List.mem_cons.mp hm with rfl | hm
  · refine ⟨fun overriding he => (by cases he), fun {name alt} hc => ?_⟩
    cases List.mem_singleton.mp hc
  · obtain rfl := List.mem_singleton.mp hm
    refine ⟨fun overriding he => (by cases he), fun {name alt} hc => ?_⟩
    cases List.mem_singleton.mp hc
    decide

theorem hidden_definition_lost :
    let r : Registry Definition := { allowOverriding := false }
    (∀ u ∈ hidingUses, u.Plain) ∧
      (r.performAll (hidingUses.take 1)).get? "a" = some { className := some "A" } ∧
      (r.performAll (hidingUses.take 2)).get? "a" = none :=
  ⟨hidingUses_plain, rfl, rfl⟩

theorem hidingUses_lookups_change :
    (∀ u ∈ hidingUses, u.Plain) ∧
      ¬ ∀ i j name d, i ≤ j →
        (({ allowOverriding := false } : Registry Definition).performAll (hidingUses.take i)).get? name =
          some d →
        (({ allowOverriding := false } : Registry Definition).performAll (hidingUses.take j)).get? name =
          some d := by
  refine ⟨hidingUses_plain, fun hlast => ?_⟩
  have hh := (Registry.lookups_last_iff hidingUses hidingUses_plain).mp hlast 1 _ rfl
  refine hh ⟨[], .addAlias "b" "a", [], rfl, rfl, ?_⟩
  have hd : (({ allowOverriding := false } : Registry Definition).performAll
      (hidingUses.take 1)).get? "a" = some { className := some "A" } := rfl
  exact .intro rfl hd (by rintro ⟨⟩)

end BeanCatalog
