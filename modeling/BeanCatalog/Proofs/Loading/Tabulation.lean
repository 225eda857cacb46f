import BeanCatalog.Proofs.Loading.Levels
import BeanCatalog.Proofs.Loading.Replay
import BeanCatalog.Proofs.Registry.Repointing

namespace BeanCatalog

def componentsIn (journal : List JournalEntry) : List Holder :=
  journal.filterMap fun
    | .event (.component holder _) => some holder
    | _ => none

/-- Whether a bean was refused for one of its aliases, its definition being in the registry already. -/
def Refusal.ofAlias : Refusal → Bool
  | .emptyName | .nameTaken _ => false
  | .emptyAlias | .aliasTaken .. | .aliasCycle .. => true

def NoAliasRefused (journal : List JournalEntry) : Prop :=
  ∀ p ∈ problemsOf .error journal, ∀ name refusal, p.fault = .definitionRefused name →
    p.cause = some (.refused refusal) → refusal.ofAlias = false

namespace Table

variable {α : Type} {t : Table α} {l : List (String × α)} {k : String}

def putAll (t : Table α) (l : List (String × α)) : Table α := l.foldl (fun t (k, v) => t.put k v) t

theorem length_put (t : Table α) (k : String) (v : α) :
    (t.put k v).length = if k ∈ t.keys then t.length else t.length + 1 := by
  have hkeys : (t.put k v).keys.length = t.keys.length + if k ∈ t.keys then 0 else 1 := by
    rw [keys_put]
    split <;> simp
  have hlength : (t.put k v).length = t.length + if k ∈ t.keys then 0 else 1 := by
    simpa only [keys, List.length_map] using hkeys
  rw [hlength]
  split <;> rfl

theorem length_putAll_le (t : Table α) (l : List (String × α)) :
    (t.putAll l).length ≤ t.length + l.length := by
  induction l generalizing t with
  | nil => exact le_rfl
  | cons p l ih =>
    have hput := length_put t p.1 p.2
    have hrest := ih (t.put p.1 p.2)
    rw [List.length_cons]
    change ((t.put p.1 p.2).putAll l).length ≤ _
    split at hput <;> omega

theorem length_putAll_iff : (t.putAll l).length = t.length + l.length ↔
    (l.map Prod.fst).Nodup ∧ ∀ k ∈ l.map Prod.fst, k ∉ t.keys := by
  induction l generalizing t with
  | nil => simp [putAll]
  | cons p l ih =>
    obtain ⟨k, v⟩ := p
    have hput := length_put t k v
    have hkeys := keys_put t k v
    change ((t.put k v).putAll l).length = t.length + (l.length + 1) ↔ _
    by_cases hk : k ∈ t.keys
    · rw [if_pos hk] at hput
      have hle := length_putAll_le (t.put k v) l
      constructor
      · intro he
        omega
      · rintro ⟨-, hnot⟩
        exact absurd hk (hnot k (by simp))
    · rw [if_neg hk] at hput hkeys
      have hlength : t.length + (l.length + 1) = (t.put k v).length + l.length := by omega
      rw [hlength, ih, hkeys]
      simp only [List.map_cons, List.nodup_cons, List.mem_cons, List.mem_append,
        forall_eq_or_imp, not_or]
      constructor
      · rintro ⟨hnodup, hnot⟩
        refine ⟨⟨fun hm => (hnot k hm).2.1 rfl, hnodup⟩, hk, fun x hx => (hnot x hx).1⟩
      · rintro ⟨⟨hfresh, hnodup⟩, -, hnot⟩
        refine ⟨hnodup, fun x hx => ⟨hnot x hx, ?_, List.not_mem_nil⟩⟩
        rintro rfl
        exact hfresh hx

theorem get?_putAll_absent (hk : k ∉ l.map Prod.fst) : (t.putAll l).get? k = t.get? k := by
  induction l generalizing t with
  | nil => rfl
  | cons p l ih =>
    rw [List.map_cons, List.mem_cons, not_or] at hk
    refine (ih hk.2).trans ?_
    rw [get?_put, if_neg hk.1]

theorem get?_putAll_mem (hn : (l.map Prod.fst).Nodup) {p : String × α} (hp : p ∈ l) :
    (t.putAll l).get? p.1 = some p.2 := by
  induction l generalizing t with
  | nil => cases hp
  | cons q l ih =>
    rw [List.map_cons, List.nodup_cons] at hn
    rcases List.mem_cons.mp hp with rfl | hp
    · refine (get?_putAll_absent hn.1).trans ?_
      rw [get?_put, if_pos rfl]
    · exact ih hn.2 hp

end Table

namespace Registry

variable {δ : Type} {r : Registry δ} {name : String} {d : δ} {aliases : List String}

theorem addAlias_refusal {alt : String} {refusal : Refusal}
    (h : r.addAlias name alt = .error refusal) : refusal.ofAlias = true := by
  unfold addAlias at h
  split at h
  · cases h
    rfl
  split at h
  · cases h
  split at h
  · cases h
  split at h
  · cases h
    rfl
  split at h
  · cases h
    rfl
  · cases h

theorem aliases_refusal {refusal : Refusal}
    (h : (r.calls (fun _ _ => false) (aliases.map (.addAlias name))).refusal = some refusal) :
    refusal.ofAlias = true := by
  induction aliases generalizing r with
  | nil => cases h
  | cons alt aliases ih =>
    rw [List.map_cons] at h
    cases hc : r.call (.addAlias name alt) with
    | error refusal' =>
      simp only [calls, hc] at h
      exact Option.some.inj h ▸ addAlias_refusal hc
    | ok r' =>
      simp only [calls, hc] at h
      exact ih h

theorem afterAliases_definitions (r : Registry δ) (name : String) (aliases : List String) :
    (r.afterCalls (aliases.map (.addAlias name))).definitions = r.definitions := by
  refine afterCalls_induct (P := fun q => q.definitions = r.definitions) ?_ rfl
  intro c hc q q' hq hcall
  obtain ⟨alt, -, rfl⟩ := List.mem_map.mp hc
  exact (addAlias_definitions hcall).trans hq

theorem accepted_definitions
    (hc : (r.calls (fun _ _ => false) (RegistryCall.all name d aliases)).refusal = none) :
    (r.afterCalls (RegistryCall.all name d aliases)).definitions = r.definitions.put name d := by
  unfold RegistryCall.all at hc ⊢
  cases hd : r.call (.define name d) with
  | error refusal => simp [calls, hd] at hc
  | ok r' =>
    rw [afterCalls_ok hd, afterAliases_definitions]
    obtain ⟨-, -, rfl⟩ := define_ok hd
    rfl

theorem refused_same {refusal : Refusal}
    (hc : (r.calls (fun _ _ => false) (RegistryCall.all name d aliases)).refusal = some refusal)
    (ha : refusal.ofAlias = false) : r.afterCalls (RegistryCall.all name d aliases) = r := by
  unfold RegistryCall.all at hc ⊢
  cases hd : r.call (.define name d) with
  | error refusal' => exact afterCalls_error hd
  | ok r' =>
    simp only [calls, hd] at hc
    have hof := aliases_refusal hc
    rw [ha] at hof
    cases hof

end Registry

theorem componentsIn_append (first rest : List JournalEntry) :
    componentsIn (first ++ rest) = componentsIn first ++ componentsIn rest := List.filterMap_append

theorem componentsIn_registered (r : Registry Definition) (calls : List (RegistryCall Definition)) :
    componentsIn (Reading.registered r calls) = [] := by
  simp [componentsIn, Reading.registered, Reading.replacedRemarks, List.filterMap_map]

theorem componentsIn_talk {journal : List JournalEntry} (h : ∀ entry ∈ journal, entry.Talk) :
    componentsIn journal = [] := by
  apply List.filterMap_eq_nil_iff.mpr
  intro entry hm
  cases h entry hm <;> rfl

theorem NoAliasRefused.append {first rest : List JournalEntry} (h : NoAliasRefused (first ++ rest)) :
    NoAliasRefused first ∧ NoAliasRefused rest := by
  unfold NoAliasRefused at h
  rw [problemsOf_append] at h
  exact ⟨fun p hp => h p (List.mem_append_left _ hp), fun p hp => h p (List.mem_append_right _ hp)⟩

def Tabulates (r : Registry Definition) (journal : List JournalEntry) (r' : Registry Definition) : Prop :=
  NoAliasRefused journal → r'.definitions =
    r.definitions.putAll ((componentsIn journal).map fun holder => (holder.name, holder.definition))

theorem Loader.tabulates_law {l : Loader} (hl : l.listening = true) : JournalLaw l Tabulates where
  nil r _ := rfl
  append := by
    intro r r' r'' first rest hfirst hrest hno
    rw [hrest hno.append.2, hfirst hno.append.1, componentsIn_append, List.map_append, Table.putAll,
      Table.putAll, Table.putAll, List.foldl_append]
  silent r entry he hno := by cases he <;> rfl
  problem r severity p hno := rfl
  load {r r' inside} q completed hinside hno := by
    have hcomponents : componentsIn (.began q :: (inside ++ [.ended q completed])) =
        componentsIn inside := by
      change componentsIn (inside ++ [.ended q completed]) = _
      rw [componentsIn_append]
      exact List.append_nil _
    rw [hcomponents]
    exact hinside (hno : NoAliasRefused (inside ++ [.ended q completed])).append.1
  enroll importer q e enrolment s := by
    cases hc : (s.registry.calls (fun _ _ => false) enrolment.calls).refusal with
    | none =>
      rw [Context.enroll_accepted _ _ hc]
      refine ⟨_, rfl, fun _ => ?_⟩
      have hlistens : (l.context importer q).listening = true := hl
      rw [hlistens, if_pos rfl, componentsIn_append, componentsIn_registered]
      cases enrolment with
      | naming name alt => exact Registry.afterAliases_definitions s.registry name [alt]
      | bean holder => exact Registry.accepted_definitions hc
    | some refusal =>
      obtain ⟨remarks, ht⟩ := (l.context importer q).enroll_refused e hc
      rw [ht]
      refine ⟨_, rfl, fun hno => ?_⟩
      have hremarks : componentsIn (remarks.map JournalEntry.remark) = [] :=
        componentsIn_talk (JournalEntry.Talk.remarks remarks)
      rw [componentsIn_append, componentsIn_registered]
      change _ = s.registry.definitions.putAll
        ((componentsIn (remarks.map JournalEntry.remark)).map _)
      rw [hremarks]
      cases enrolment with
      | naming name alt => exact Registry.afterAliases_definitions s.registry name [alt]
      | bean holder =>
        have hof : refusal.ofAlias = false :=
          hno.append.2 _ List.mem_cons_self holder.name refusal rfl rfl
        exact congrArg Registry.definitions (Registry.refused_same hc hof)

theorem kept_iff_names {holders : List Holder} {registry : Registry Definition}
    (h : registry.definitions =
      Table.putAll [] (holders.map fun holder => (holder.name, holder.definition))) :
    ((∀ holder ∈ holders, registry.definitions.get? holder.name = some holder.definition) ∧
        registry.size = holders.length) ↔
      (holders.map (·.name)).Nodup := by
  have hnames : (holders.map fun holder => (holder.name, holder.definition)).map Prod.fst =
      holders.map (·.name) := by
    rw [List.map_map]
    rfl
  have hlength := Table.length_putAll_iff (t := [])
    (l := holders.map fun holder => (holder.name, holder.definition))
  rw [hnames, List.length_nil, Nat.zero_add, List.length_map] at hlength
  rw [Registry.size, h]
  constructor
  · rintro ⟨-, hsize⟩
    exact (hlength.mp hsize).1
  · intro hnodup
    refine ⟨fun holder hm => ?_, hlength.mpr ⟨hnodup, fun _ _ => List.not_mem_nil⟩⟩
    rw [← hnames] at hnodup
    exact Table.get?_putAll_mem hnodup (List.mem_map_of_mem hm)

end BeanCatalog
