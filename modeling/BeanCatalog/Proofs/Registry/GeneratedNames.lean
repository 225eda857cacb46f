import BeanCatalog.Proofs.Registry.Repointing
import BeanCatalog.Reading.Bean
import Mathlib.Data.Finset.Card
import Mathlib.Data.Nat.Find

namespace BeanCatalog

theorem generatedName_injective (className : String) : Function.Injective (generatedName className) := by
  intro i j h
  have hnumbers : toString i = toString j := (String.append_right_inj _).mp h
  have hdigits : Nat.toDigits 10 i = Nat.toDigits 10 j := by
    rw [← Nat.toList_repr, ← Nat.toList_repr, ← Nat.toString_eq_repr, ← Nat.toString_eq_repr, hnumbers]
  rw [← Nat.ofDigitChars_ten_toDigits (n := i), hdigits, Nat.ofDigitChars_ten_toDigits]

theorem firstFree_eq {taken : Nat → Bool} {fuel start n : Nat} (hn : taken n = false)
    (hbefore : ∀ i, start ≤ i → i < n → taken i = true) (hstart : start ≤ n)
    (hfuel : n ≤ start + fuel) : firstFree taken fuel start = n := by
  induction fuel generalizing start with
  | zero =>
    rw [firstFree]
    omega
  | succ fuel ih =>
    rw [firstFree]
    split
    next ht =>
      have hne : start ≠ n := by
        rintro rfl
        rw [hn] at ht
        cases ht
      exact ih (fun i hi => hbefore i (by omega)) (by omega) (by omega)
    next hf =>
      by_contra hne
      exact hf (hbefore start le_rfl (by omega))

namespace Registry

variable {δ : Type} {r : Registry δ} {x : String}

/-- Alias steps, or none, lead from the name to one that is no alias and has a definition. -/
def Resolves (r : Registry δ) (name : String) : Prop :=
  ∃ last, Reaches r.aliases name last ∧ r.isAlias last = false ∧ r.definitions.has last = true

theorem Sound.contains_iff (h : r.Sound) : r.contains x = true ↔ r.Resolves x := by
  constructor
  · intro hc
    exact ⟨r.canonical x, r.canonical_reaches x, h.canonical_ends x, hc⟩
  · rintro ⟨last, hr, hend, hd⟩
    rwa [contains, h.canonical_eq hr (isAlias_eq_false_iff.mp hend)]

theorem Resolves.known (h : r.Resolves x) : x ∈ r.definitions.keys ∨ x ∈ r.aliases.keys := by
  obtain ⟨last, hr, -, hd⟩ := h
  rcases hr.cases_head with rfl | ⟨next, hp, -⟩
  · exact .inl (Table.mem_keys_iff.mpr hd)
  · exact .inr hp.key

theorem exists_unresolved (r : Registry δ) (className : String) :
    ∃ n ≤ r.size + r.aliases.length, ¬ r.Resolves (generatedName className n) := by
  by_contra hall
  push Not at hall
  have hknown : ∀ n ∈ Finset.range (r.size + r.aliases.length + 1),
      generatedName className n ∈ (r.definitions.keys ++ r.aliases.keys).toFinset := by
    intro n hn
    rw [List.mem_toFinset, List.mem_append]
    exact (hall n (Nat.lt_succ_iff.mp (Finset.mem_range.mp hn))).known
  have hnumbers := Finset.card_le_card_of_injOn _ hknown (generatedName_injective className).injOn
  have hnames := List.toFinset_card_le (r.definitions.keys ++ r.aliases.keys)
  have hlength : (r.definitions.keys ++ r.aliases.keys).length = r.size + r.aliases.length := by
    rw [List.length_append, Table.keys, List.length_map, Table.keys, List.length_map, size]
  rw [Finset.card_range] at hnumbers
  omega

/-- The name that is generated has the least number whose name stands for no definition. The search
takes no more steps to it than there are definitions and aliases, and would end there also if it were
let go on. -/
theorem freeName_least (overriding : Bool) (uses : List (RegistryUse δ)) (className : String) :
    let r := ({ allowOverriding := overriding } : Registry δ).performAll uses
    ∃ n ≤ r.size + r.aliases.length,
      freeName r className = generatedName className n ∧
        ¬ r.Resolves (generatedName className n) ∧
        (∀ i < n, r.Resolves (generatedName className i)) ∧
        ∀ fuel, n ≤ fuel →
          firstFree (fun i => r.contains (generatedName className i)) fuel 0 = n := by
  classical
  intro r
  have hr : r.Sound := (Sound.empty overriding).performAll uses
  obtain ⟨bound, hbound, hfree⟩ := exists_unresolved r className
  have hexists : ∃ n, ¬ r.Resolves (generatedName className n) := ⟨bound, hfree⟩
  let n := Nat.find hexists
  have hn : ¬ r.Resolves (generatedName className n) := Nat.find_spec hexists
  have hbefore : ∀ i < n, r.Resolves (generatedName className i) := fun i hi =>
    not_not.mp (Nat.find_min hexists hi)
  have hle : n ≤ r.size + r.aliases.length := (Nat.find_min' hexists hfree).trans hbound
  have hends : ∀ fuel, n ≤ fuel →
      firstFree (fun i => r.contains (generatedName className i)) fuel 0 = n := by
    intro fuel hfuel
    refine firstFree_eq ?_ (fun i _ hi => hr.contains_iff.mpr (hbefore i hi)) n.zero_le (by omega)
    exact Bool.eq_false_iff.mpr (mt hr.contains_iff.mp hn)
  exact ⟨n, hle, congrArg (generatedName className) (hends _ hle), hn, hbefore, hends⟩

example :
    let r := ({} : Registry Nat).performAll
      [.call (.define "C#0" 0), .call (.addAlias "C#0" "C#1"), .call (.addAlias "D" "C#2")]
    freeName r "C" = "C#2" := by
  rfl

end Registry

end BeanCatalog
