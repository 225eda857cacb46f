import BeanCatalog.Proofs.Registry.Repointing

namespace BeanCatalog

namespace Registry

variable {δ : Type} {r r' : Registry δ} {name alt : String} {c : RegistryCall δ}

theorem Sound.isAlias_canonical_ne (h : r.Sound) (hn : r.isAlias name = true) (x : String) :
    r.canonical x ≠ name := by
  rintro rfl
  rw [h.canonical_ends x] at hn
  cases hn

theorem Sound.leads_end_iff (h : r.Sound) (hn : r.isAlias name = false) :
    Leads r.aliases alt name ↔ r.isAlias alt = true ∧ r.canonical alt = name := by
  rw [← h.reaches_free_iff (isAlias_eq_false_iff.mp hn)]
  constructor
  · intro hl
    obtain ⟨next, hp, -⟩ := Relation.TransGen.head'_iff.mp hl
    exact ⟨Table.mem_keys_iff.mp hp.key, hl.to_reflTransGen⟩
  · rintro ⟨ha, hr⟩
    rcases Relation.reflTransGen_iff_eq_or_transGen.mp hr with rfl | hl
    · rw [hn] at ha
      cases ha
    · exact hl

theorem Sound.mem_aliasesOf_iff (h : r.Sound) :
    alt ∈ r.aliasesOf name ↔ r.isAlias name = false ∧ Leads r.aliases alt name := by
  have hlisted : alt ∈ r.aliasesOf name ↔ r.isAlias alt = true ∧ r.canonical alt = name := by
    rw [aliasesOf, List.mem_filter, Table.mem_keys_iff, beq_iff_eq, isAlias]
  rw [hlisted]
  cases hn : r.isAlias name with
  | true =>
    have hne := h.isAlias_canonical_ne hn alt
    simp [hne]
  | false =>
    rw [h.leads_end_iff hn, and_iff_right rfl]

theorem Sound.get?_of_leads (h : r.Sound) (hl : Leads r.aliases alt name) :
    r.get? alt = r.get? name := by
  have hr : Reaches r.aliases alt (r.canonical name) :=
    hl.to_reflTransGen.trans (r.canonical_reaches name)
  rw [get?, h.canonical_eq hr (h.acyclic.follow_ends name), ← get?]

theorem call_nodup (h : r.aliases.keys.Nodup) (hc : r.call c = .ok r') : r'.aliases.keys.Nodup := by
  cases c with
  | define name d =>
    obtain ⟨-, -, rfl⟩ := define_ok hc
    exact h
  | addAlias name alt =>
    obtain ⟨-, ⟨-, rfl⟩ | ⟨-, -, rfl⟩ | ⟨-, -, -, rfl⟩⟩ := addAlias_ok hc
    · exact Table.nodup_keys_erase h alt
    · exact h
    · exact Table.nodup_keys_put h alt name

theorem perform_nodup (h : r.aliases.keys.Nodup) (u : RegistryUse δ) :
    (r.perform u).aliases.keys.Nodup := by
  have hcalls (cs : List (RegistryCall δ)) : (r.afterCalls cs).aliases.keys.Nodup :=
    afterCalls_induct (P := fun q => q.aliases.keys.Nodup) (fun _ _ _ _ hq hc => call_nodup hq hc) h
  cases u with
  | allow overriding => exact h
  | call c => exact hcalls _
  | holder name d aliases => exact hcalls _

theorem performAll_nodup (h : r.aliases.keys.Nodup) (uses : List (RegistryUse δ)) :
    (r.performAll uses).aliases.keys.Nodup := by
  induction uses generalizing r with
  | nil => exact h
  | cons u uses ih => exact ih (perform_nodup h u)

/-- A name from which alias steps lead to another is listed among the aliases of that one, once, just
when that one is no alias itself. Either way both names stand for the same definition. -/
theorem aliases_listed_iff (overriding : Bool) (uses : List (RegistryUse δ)) (name alt : String) :
    let r := ({ allowOverriding := overriding } : Registry δ).performAll uses
    ((alt ∈ r.aliasesOf name ↔ Leads r.aliases alt name) ↔
        r.isAlias name = false ∨ ¬ Leads r.aliases alt name) ∧
      (r.aliasesOf name).Nodup ∧
      (Leads r.aliases alt name → r.get? alt = r.get? name) := by
  intro r
  have hr : r.Sound := (Sound.empty overriding).performAll uses
  have hempty : ({ allowOverriding := overriding } : Registry δ).aliases.keys.Nodup := List.nodup_nil
  have hdistinct : r.aliases.keys.Nodup := performAll_nodup hempty uses
  refine ⟨?_, hdistinct.filter _, hr.get?_of_leads⟩
  rw [hr.mem_aliasesOf_iff]
  constructor
  · intro h
    by_cases hl : Leads r.aliases alt name
    · exact .inl (h.mpr hl).1
    · exact .inr hl
  · rintro (hn | hl)
    · exact and_iff_right hn
    · exact ⟨And.right, fun hl' => absurd hl' hl⟩

end Registry

def chainedUses : List (RegistryUse Nat) :=
  [.call (.define "a" 0), .call (.addAlias "a" "b"), .call (.addAlias "b" "c")]

theorem middle_alias_unlisted :
    let r := ({} : Registry Nat).performAll chainedUses
    Leads r.aliases "c" "b" ∧ r.get? "c" = r.get? "b" ∧ r.aliasesOf "b" = [] ∧
      r.aliasesOf "a" = ["b", "c"] :=
  ⟨.single rfl, rfl, rfl, rfl⟩

theorem chainedUses_listed :
    let r := ({} : Registry Nat).performAll chainedUses
    Leads r.aliases "c" "a" ∧ "c" ∈ r.aliasesOf "a" ∧ r.get? "c" = r.get? "a" ∧
      ¬ ("c" ∈ r.aliasesOf "b" ↔ Leads r.aliases "c" "b") := by
  intro r
  have hb : Leads r.aliases "c" "b" := .single rfl
  have ha : Leads r.aliases "c" "a" := hb.tail rfl
  have hend := Registry.aliases_listed_iff true chainedUses "a" "c"
  have hmiddle := Registry.aliases_listed_iff true chainedUses "b" "c"
  refine ⟨ha, (hend.1.mpr (.inl rfl)).mpr ha, hend.2.2 ha, fun h => ?_⟩
  rcases hmiddle.1.mp h with hfree | hl
  · cases hfree
  · exact hl hb

end BeanCatalog
