import BeanCatalog.Registry.Call
import Mathlib.Data.Finset.Card
import Mathlib.Logic.Relation

namespace BeanCatalog

def Points (aliases : Table String) (name next : String) : Prop := aliases.get? name = some next

abbrev Leads (aliases : Table String) : String → String → Prop := Relation.TransGen (Points aliases)

abbrev Reaches (aliases : Table String) : String → String → Prop :=
  Relation.ReflTransGen (Points aliases)

def Acyclic (aliases : Table String) : Prop := ∀ name, ¬ Leads aliases name name

def aliasAt (aliases : Table String) : Nat → String → Option String
  | 0, name => some name
  | n + 1, name => (aliases.get? name).bind (aliasAt aliases n)

variable {aliases : Table String} {name alt x y z : String} {m n : Nat}

theorem Points.unique (h : Points aliases x y) (h' : Points aliases x z) : y = z :=
  Option.some.inj (h.symm.trans h')

theorem Points.key (h : Points aliases x y) : x ∈ aliases.keys := by
  have hget : aliases.get? x = some y := h
  rw [Table.mem_keys_iff, Table.has, hget]
  rfl

theorem aliasAt_succ : aliasAt aliases (n + 1) x = some z ↔
    ∃ y, Points aliases x y ∧ aliasAt aliases n y = some z := by
  simp only [aliasAt, Points, Option.bind_eq_some_iff]

theorem aliasAt_add (h : aliasAt aliases m x = some y) :
    aliasAt aliases (m + n) x = aliasAt aliases n y := by
  induction m generalizing x with
  | zero =>
    cases h
    rw [Nat.zero_add]
  | succ m ih =>
    obtain ⟨next, hp, hn⟩ := aliasAt_succ.mp h
    have hget : aliases.get? x = some next := hp
    rw [Nat.add_right_comm, aliasAt, hget]
    exact ih hn

theorem aliasAt_reaches (h : aliasAt aliases n x = some y) : Reaches aliases x y := by
  induction n generalizing x with
  | zero =>
    cases h
    exact .refl
  | succ n ih =>
    obtain ⟨next, hp, hn⟩ := aliasAt_succ.mp h
    exact .head hp (ih hn)

theorem aliasAt_leads (h : aliasAt aliases (n + 1) x = some y) : Leads aliases x y := by
  obtain ⟨next, hp, hn⟩ := aliasAt_succ.mp h
  exact .head' hp (aliasAt_reaches hn)

theorem Leads.aliasAt (h : Leads aliases x y) : ∃ n, aliasAt aliases (n + 1) x = some y := by
  induction h using Relation.TransGen.head_induction_on with
  | single hp => exact ⟨0, aliasAt_succ.mpr ⟨y, hp, rfl⟩⟩
  | head hp _ ih =>
    obtain ⟨n, hn⟩ := ih
    exact ⟨n + 1, aliasAt_succ.mpr ⟨_, hp, hn⟩⟩

theorem Acyclic.aliasAt_inj (h : Acyclic aliases) (hm : aliasAt aliases m name = some x)
    (hn : aliasAt aliases n name = some x) : m = n := by
  by_contra hne
  wlog hlt : m < n generalizing m n
  · exact this hn hm (Ne.symm hne) (by omega)
  obtain ⟨d, rfl⟩ : ∃ d, n = m + (d + 1) := ⟨n - m - 1, by omega⟩
  rw [aliasAt_add hm] at hn
  exact h x (aliasAt_leads hn)

theorem aliasAt_earlier (h : aliasAt aliases n name = some x) (hm : m < n) :
    ∃ y, aliasAt aliases m name = some y ∧ y ∈ aliases.keys := by
  induction n generalizing m name with
  | zero => omega
  | succ n ih =>
    obtain ⟨next, hp, hn⟩ := aliasAt_succ.mp h
    cases m with
    | zero => exact ⟨name, rfl, hp.key⟩
    | succ m =>
      obtain ⟨y, hy, hk⟩ := ih (m := m) hn (by omega)
      exact ⟨y, aliasAt_succ.mpr ⟨next, hp, hy⟩, hk⟩

theorem Acyclic.steps_le (h : Acyclic aliases) (hn : aliasAt aliases n name = some x) :
    n ≤ aliases.length := by
  have hkeys : ∀ i ∈ Finset.range n, ((aliasAt aliases i name).getD "") ∈ aliases.keys.toFinset := by
    intro i hi
    obtain ⟨y, hy, hk⟩ := aliasAt_earlier hn (Finset.mem_range.mp hi)
    rw [hy]
    exact List.mem_toFinset.mpr hk
  have hinj : Set.InjOn (fun i => (aliasAt aliases i name).getD "") (Finset.range n) := by
    intro i hi j hj hij
    obtain ⟨y, hy, -⟩ := aliasAt_earlier hn (Finset.mem_range.mp hi)
    obtain ⟨z, hz, -⟩ := aliasAt_earlier hn (Finset.mem_range.mp hj)
    have hyz : y = z := by simpa only [hy, hz, Option.getD_some] using hij
    exact h.aliasAt_inj hy (hyz ▸ hz)
  have hcard := Finset.card_le_card_of_injOn _ hkeys hinj
  have hlength := List.toFinset_card_le aliases.keys
  have hmap : aliases.keys.length = aliases.length := List.length_map _
  rw [Finset.card_range] at hcard
  omega

theorem followAliases_at (aliases : Table String) (n : Nat) (name : String) :
    ∃ m ≤ n, aliasAt aliases m name = some (followAliases aliases n name) ∧
      (m = n ∨ aliases.get? (followAliases aliases n name) = none) := by
  induction n generalizing name with
  | zero => exact ⟨0, le_rfl, rfl, .inl rfl⟩
  | succ n ih =>
    cases hp : aliases.get? name with
    | none =>
      refine ⟨0, by omega, ?_, .inr ?_⟩ <;> simp [followAliases, hp, aliasAt]
    | some next =>
      obtain ⟨m, hm, hat, hend⟩ := ih next
      have hf : followAliases aliases (n + 1) name = followAliases aliases n next := by
        simp [followAliases, hp]
      rw [hf]
      refine ⟨m + 1, by omega, aliasAt_succ.mpr ⟨next, hp, hat⟩, ?_⟩
      exact hend.imp_left (congrArg (· + 1))

theorem Acyclic.follow_ends (h : Acyclic aliases) (name : String) :
    aliases.get? (followAliases aliases aliases.length name) = none := by
  obtain ⟨m, -, hat, rfl | hend⟩ := followAliases_at aliases aliases.length name
  · cases hp : aliases.get? (followAliases aliases aliases.length name) with
    | none => rfl
    | some next =>
      have hone : aliasAt aliases 1 (followAliases aliases aliases.length name) = some next :=
        aliasAt_succ.mpr ⟨next, hp, rfl⟩
      have hmore := h.steps_le ((aliasAt_add hat).trans hone)
      omega
  · exact hend

theorem meetsAlias_iff : meetsAlias aliases y n x = true ↔
    ∃ m < n, aliasAt aliases (m + 1) x = some y := by
  induction n generalizing x with
  | zero => simp [meetsAlias]
  | succ n ih =>
    cases hp : aliases.get? x with
    | none => simp [meetsAlias, aliasAt, hp]
    | some next =>
      have hstep : ∀ m, aliasAt aliases (m + 1) x = aliasAt aliases m next := by
        intro m
        simp [aliasAt, hp]
      simp only [meetsAlias, hp, Bool.or_eq_true, beq_iff_eq, ih, hstep]
      constructor
      · rintro (rfl | ⟨m, hm, hat⟩)
        · exact ⟨0, by omega, rfl⟩
        · exact ⟨m + 1, by omega, hat⟩
      · rintro ⟨m, hm, hat⟩
        cases m with
        | zero => exact .inl (Option.some.inj hat)
        | succ m => exact .inr ⟨m, by omega, hat⟩

theorem points_put : Points (aliases.put alt name) x y ↔
    x = alt ∧ y = name ∨ x ≠ alt ∧ Points aliases x y := by
  simp only [Points, Table.get?_put]
  by_cases hx : x = alt <;> simp [hx, eq_comm]

theorem Reaches.congr {aliases' : Table String}
    (hp : ∀ x y, x ≠ alt → Points aliases x y → Points aliases' x y)
    (h : Reaches aliases x alt) : Reaches aliases' x alt := by
  induction h using Relation.ReflTransGen.head_induction_on with
  | refl => exact .refl
  | @head x y hxy _ ih =>
    by_cases hx : x = alt
    · rw [hx]
    · exact .head (hp x y hx hxy) ih

theorem reaches_put_iff : Reaches (aliases.put alt name) x alt ↔ Reaches aliases x alt := by
  constructor
  · apply Reaches.congr
    intro x y hx hp
    exact (points_put.mp hp).elim (fun h => absurd h.1 hx) And.right
  · apply Reaches.congr
    intro x y hx hp
    exact points_put.mpr (.inr ⟨hx, hp⟩)

theorem leads_of_put (h : Leads (aliases.put alt name) x y) :
    Leads aliases x y ∨
      Reaches (aliases.put alt name) x alt ∧ Reaches (aliases.put alt name) name y := by
  induction h with
  | single hp =>
    rcases points_put.mp hp with ⟨rfl, rfl⟩ | ⟨-, hp⟩
    · exact .inr ⟨.refl, .refl⟩
    · exact .inl (.single hp)
  | tail hxy hp ih =>
    rcases points_put.mp hp with ⟨rfl, rfl⟩ | ⟨-, hold⟩
    · exact .inr ⟨hxy.to_reflTransGen, .refl⟩
    · rcases ih with ih | ⟨hx, hy⟩
      · exact .inl (ih.tail hold)
      · exact .inr ⟨hx, hy.tail hp⟩

theorem acyclic_put_iff (h : Acyclic aliases) :
    Acyclic (aliases.put alt name) ↔ ¬ Reaches aliases name alt := by
  have hp : Points (aliases.put alt name) alt name := points_put.mpr (.inl ⟨rfl, rfl⟩)
  have hback : Reaches (aliases.put alt name) name alt ↔ Reaches aliases name alt := reaches_put_iff
  rw [← hback]
  constructor
  · intro hnew hr
    exact hnew alt (.head' hp hr)
  · intro hr x hx
    rcases leads_of_put hx with hold | ⟨hx, hy⟩
    · exact h x hold
    · exact hr (hy.trans hx)

theorem Acyclic.erase (h : Acyclic aliases) (alt : String) : Acyclic (aliases.erase alt) := by
  intro x hx
  have hold : ∀ y z, Points (aliases.erase alt) y z → Points aliases y z := by
    intro y z hp
    simp only [Points, Table.get?_erase] at hp
    by_cases hy : y = alt
    · simp [hy] at hp
    · simpa [Points, hy] using hp
  exact h x (Relation.TransGen.mono hold x x hx)

end BeanCatalog
