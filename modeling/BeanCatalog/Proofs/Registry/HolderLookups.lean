import BeanCatalog.Proofs.Registry.Holders
import BeanCatalog.Proofs.Registry.Repointing

namespace BeanCatalog

namespace Registry

variable {δ : Type} {r : Registry δ} {name alt x : String} {d : δ} {aliases : List String}

theorem contains_of_get? (h : r.get? x = some d) : r.contains x = true := by
  rw [get?] at h
  rw [contains, Table.has, h]
  rfl

theorem Sound.isAlias_of_canonical (h : r.Sound) (hx : r.canonical x = x) : r.isAlias x = false := by
  have hend := h.canonical_ends x
  rwa [hx] at hend

theorem Sound.canonical_of_not_isAlias (h : r.Sound) (hx : r.isAlias x = false) :
    r.canonical x = x :=
  h.canonical_of_free (isAlias_eq_false_iff.mp hx)

structure KeptBut (r : Registry δ) (name : String) (q : Registry δ) : Prop
    extends AlikeBut r name q where
  canonical : q.canonical name = r.canonical name

theorem KeptBut.define {q q' : Registry δ} (h : KeptBut r name q) (hc : q.define name d = .ok q') :
    KeptBut r name q' where
  toAlikeBut := h.toAlikeBut.define hc
  canonical := by
    obtain ⟨-, -, rfl⟩ := define_ok hc
    exact h.canonical

theorem KeptBut.addAlias {q q' : Registry δ} (h : KeptBut r name q) (hne : alt ≠ name)
    (hc : q.addAlias name alt = .ok q') : KeptBut r name q' where
  toAlikeBut := h.toAlikeBut.addAlias hc
  canonical := (h.sound.canonical_name hne hc).trans h.canonical

theorem Sound.keptBut_holder (h : r.Sound) (hn : name ∉ aliases) :
    KeptBut r name (r.afterCalls (RegistryCall.all name d aliases)) := by
  apply afterHolder_induct (P := KeptBut r name) _ _ ⟨⟨h, fun _ => rfl⟩, rfl⟩
  · exact fun _ _ hq hc => hq.define hc
  · exact fun alt ha _ _ hq hc => hq.addAlias (fun he => hn (he ▸ ha)) hc

theorem Sound.canonical_of_idle (h : r.Sound) (hi : r.Idle (.addAlias name alt)) :
    r.canonical alt = r.canonical name := by
  cases hi with
  | points _ hp => exact h.canonical_of_points hp
  | free _ => rfl

theorem Sound.get?_holder (h : r.Sound)
    (ha : (r.calls (fun _ _ => false) (RegistryCall.all name d aliases)).refusal = none) :
    (r.afterCalls (RegistryCall.all name d aliases)).get? name =
      if r.isAlias name = false ∨ name ∈ aliases then some d else r.get? name := by
  have hidle := fun c => accepted_holder_idle (c := c) ha
  have hs := h.afterCalls (RegistryCall.all name d aliases)
  have hdef : (r.afterCalls (RegistryCall.all name d aliases)).definitions.get? name = some d := by
    cases hidle _ List.mem_cons_self with
    | define hd => exact hd
  by_cases hn : name ∈ aliases
  · rw [if_pos (.inr hn)]
    have hfree : (r.afterCalls (RegistryCall.all name d aliases)).aliases.get? name = none := by
      cases hidle (.addAlias name name) (List.mem_cons_of_mem _ (List.mem_map.mpr ⟨_, hn, rfl⟩)) with
      | points hne _ => exact absurd rfl hne
      | free hf => exact hf
    rw [get?, hs.canonical_of_free hfree, hdef]
  · have hkept := h.keptBut_holder (d := d) hn
    rw [get?, hkept.canonical]
    by_cases ho : r.isAlias name = false
    · rw [if_pos (.inl ho), h.canonical_of_not_isAlias ho, hdef]
    · rw [if_neg (by simp [ho, hn]), get?]
      exact hkept.definitions (mt h.isAlias_of_canonical ho)

/-- The names of an accepted holder are found, and stand for its definition, just when its name was no
alias, is freed by being among the aliases, or stood for that definition already. -/
theorem accepted_holder_found_iff (overriding : Bool) (uses : List (RegistryUse δ)) (name : String)
    (d : δ) (aliases : List String) :
    let r := ({ allowOverriding := overriding } : Registry δ).performAll uses
    let r' := r.perform (.holder name d aliases)
    (r.calls (fun _ _ => false) (RegistryCall.all name d aliases)).refusal = none →
      ((∀ x ∈ name :: aliases, r'.get? x = some d ∧ r'.contains x = true) ↔
        r.isAlias name = false ∨ name ∈ aliases ∨ r.get? name = some d) := by
  intro r r' ha
  have hr : r.Sound := (Sound.empty overriding).performAll uses
  have hr' : r'.Sound := hr.perform _
  have hname : r'.get? name = if r.isAlias name = false ∨ name ∈ aliases then some d else r.get? name :=
    hr.get?_holder ha
  have hall : ∀ x ∈ name :: aliases, r'.get? x = r'.get? name := by
    intro x hx
    rcases List.mem_cons.mp hx with rfl | hx
    · rfl
    · have hidle := accepted_holder_idle ha (List.mem_cons_of_mem _ (List.mem_map.mpr ⟨x, hx, rfl⟩))
      rw [get?, hr'.canonical_of_idle hidle, get?]
  have hfound : (∀ x ∈ name :: aliases, r'.get? x = some d ∧ r'.contains x = true) ↔
      r'.get? name = some d := by
    constructor
    · exact fun hx => (hx name List.mem_cons_self).1
    · intro hd x hx
      have hx := (hall x hx).trans hd
      exact ⟨hx, contains_of_get? hx⟩
  rw [hfound, hname]
  split
  next h => exact ⟨fun _ => h.imp_right .inl, fun _ => rfl⟩
  next h =>
    obtain ⟨ho, hn⟩ := not_or.mp h
    exact ⟨fun hd => .inr (.inr hd), fun hd => (hd.resolve_left ho).resolve_left hn⟩

end Registry

def coveredUses : List (RegistryUse Definition) := [.call (.addAlias "y" "x")]

theorem covered_holder_lost :
    let r := ({} : Registry Definition).performAll coveredUses
    let r' := r.perform (.holder "x" { className := some "X" } ["w"])
    (r.calls (fun _ _ => false) (RegistryCall.all "x" { className := some "X" } ["w"])).refusal = none ∧
      r'.names = ["x"] ∧ r'.get? "x" = none ∧ r'.contains "x" = false ∧ r'.get? "w" = none :=
  ⟨rfl, rfl, rfl, rfl, rfl⟩

theorem coveredUses_found_when_freed :
    let r := ({} : Registry Definition).performAll coveredUses
    (r.calls (fun _ _ => false) (RegistryCall.all "x" {} ["w"])).refusal = none ∧
      (r.calls (fun _ _ => false) (RegistryCall.all "x" {} ["w", "x"])).refusal = none ∧
      ¬ (∀ x ∈ ["x", "w"], (r.perform (.holder "x" {} ["w"])).get? x = some {} ∧
        (r.perform (.holder "x" {} ["w"])).contains x = true) ∧
      ∀ x ∈ ["x", "w", "x"], (r.perform (.holder "x" {} ["w", "x"])).get? x = some {} ∧
        (r.perform (.holder "x" {} ["w", "x"])).contains x = true := by
  intro r
  refine ⟨rfl, rfl, ?_, ?_⟩
  · intro hfound
    rcases (Registry.accepted_holder_found_iff true coveredUses "x" {} ["w"] rfl).mp hfound with
      ho | hn | hd
    · cases ho
    · exact absurd hn (by decide)
    · cases hd
  · exact (Registry.accepted_holder_found_iff true coveredUses "x" {} ["w", "x"] rfl).mpr
      (.inr (.inl (by decide)))

end BeanCatalog
