import BeanCatalog.Proofs.Registry.Repointing
import Mathlib.Data.Finset.Card
import Mathlib.Data.Finset.SDiff

namespace BeanCatalog

namespace Registry

variable {δ : Type} {r r' r'' : Registry δ} {added more : List String} {name : String} {d : δ}

structure Grows (r : Registry δ) (added : List String) (r' : Registry δ) : Prop where
  names : r'.names = r.names ++ added
  nodup : added.Nodup
  apart : List.Disjoint r.names added

/-- `n` names have a definition that had none, and no name has lost its definition. -/
structure Gains (r : Registry δ) (n : Nat) (r' : Registry δ) : Prop where
  kept : r.names ⊆ r'.names
  gained : (r'.names.toFinset \ r.names.toFinset).card = n
  size : r'.size = r.size + n

theorem size_eq (r : Registry δ) : r.size = r.names.length := (List.length_map _).symm

namespace Grows

theorem refl (r : Registry δ) : r.Grows [] r :=
  ⟨(List.append_nil _).symm, .nil, List.disjoint_nil_right _⟩

theorem trans (h : r.Grows added r') (h' : r'.Grows more r'') : r.Grows (added ++ more) r'' := by
  have hapart := h'.apart
  rw [h.names, List.disjoint_append_left] at hapart
  constructor
  · rw [h'.names, h.names, List.append_assoc]
  · exact h.nodup.append h'.nodup hapart.2
  · exact List.disjoint_append_right.mpr ⟨h.apart, hapart.1⟩

theorem same (h : r'.definitions = r.definitions) : r.Grows [] r' := by
  refine ⟨?_, .nil, List.disjoint_nil_right _⟩
  rw [Registry.names, Registry.names, h, List.append_nil]

theorem define (hc : r.define name d = .ok r') :
    r.Grows (if name ∈ r.names then [] else [name]) r' := by
  obtain ⟨-, -, rfl⟩ := define_ok hc
  have hkeys : (r.definitions.put name d).keys = if name ∈ r.names then r.names else r.names ++ [name] :=
    Table.keys_put _ _ _
  split
  next hm =>
    rw [if_pos hm] at hkeys
    exact ⟨hkeys.trans (List.append_nil _).symm, .nil, List.disjoint_nil_right _⟩
  next hm =>
    rw [if_neg hm] at hkeys
    exact ⟨hkeys, List.nodup_singleton _, List.disjoint_singleton.mpr hm⟩

theorem gains (h : r.Grows added r') : r.Gains added.length r' where
  kept := by
    rw [h.names]
    exact List.subset_append_left _ _
  gained := by
    have hsets : Disjoint added.toFinset r.names.toFinset :=
      (List.disjoint_toFinset_iff_disjoint.mpr h.apart).symm
    rw [h.names, List.toFinset_append, Finset.union_sdiff_left, hsets.sdiff_eq_left,
      List.toFinset_card_of_nodup h.nodup]
  size := by rw [size_eq, size_eq, h.names, List.length_append]

end Grows

theorem call_grows {c : RegistryCall δ} (hc : r.call c = .ok r') : ∃ added, r.Grows added r' := by
  cases c with
  | define name d => exact ⟨_, .define hc⟩
  | addAlias name alt => exact ⟨[], .same (addAlias_definitions hc)⟩

theorem afterCalls_grows (r : Registry δ) (cs : List (RegistryCall δ)) :
    ∃ added, r.Grows added (r.afterCalls cs) := by
  refine afterCalls_induct (P := fun q => ∃ added, r.Grows added q) ?_ ⟨[], .refl r⟩
  rintro c - q q' ⟨added, hq⟩ hc
  obtain ⟨more, hmore⟩ := call_grows hc
  exact ⟨added ++ more, hq.trans hmore⟩

theorem perform_grows (r : Registry δ) (u : RegistryUse δ) :
    ∃ added, r.Grows added (r.perform u) := by
  cases u with
  | allow overriding => exact ⟨[], .same rfl⟩
  | call c => exact r.afterCalls_grows _
  | holder name d aliases => exact r.afterCalls_grows _

theorem performAll_grows (r : Registry δ) (uses : List (RegistryUse δ)) :
    ∃ added, r.Grows added (r.performAll uses) := by
  induction uses generalizing r with
  | nil => exact ⟨[], .refl r⟩
  | cons u uses ih =>
    obtain ⟨added, hadded⟩ := r.perform_grows u
    obtain ⟨more, hmore⟩ := ih (r.perform u)
    exact ⟨added ++ more, hadded.trans hmore⟩

end Registry

end BeanCatalog
