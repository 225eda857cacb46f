import BeanCatalog.Proofs.Registry.Uses

namespace BeanCatalog

def SameBeside (alt : String) (aliases aliases' : Table String) : Prop :=
  ∀ x, x ≠ alt → aliases'.get? x = aliases.get? x

namespace SameBeside

variable {aliases aliases' : Table String} {alt x y : String}

theorem reaches_alt (h : SameBeside alt aliases aliases') (hx : Reaches aliases x alt) :
    Reaches aliases' x alt :=
  hx.congr fun x _ hne hp => (h x hne).trans hp

theorem reaches (h : SameBeside alt aliases aliases') (hx : ¬ Reaches aliases x alt)
    (hxy : Reaches aliases x y) : Reaches aliases' x y := by
  induction hxy with
  | refl => exact .refl
  | @tail y z hxy hp ih =>
    have hne : y ≠ alt := fun he => hx (he ▸ hxy)
    exact ih.tail ((h y hne).trans hp)

end SameBeside

namespace Registry

variable {δ : Type} {r r' : Registry δ} {name alt x y : String}

theorem canonical_reaches (r : Registry δ) (x : String) : Reaches r.aliases x (r.canonical x) := by
  obtain ⟨m, -, hm, -⟩ := followAliases_at r.aliases r.aliases.length x
  exact aliasAt_reaches hm

theorem Sound.canonical_eq (h : r.Sound) (hr : Reaches r.aliases x y)
    (hy : r.aliases.get? y = none) : r.canonical x = y := by
  have hend : r.aliases.get? (r.canonical x) = none := h.acyclic.follow_ends x
  have hstop : ∀ {a b}, r.aliases.get? a = none → Reaches r.aliases a b → a = b := by
    intro a b ha hab
    rcases hab.cases_head with rfl | ⟨next, hp, -⟩
    · rfl
    · cases ha.symm.trans hp
  have hunique : Relator.RightUnique (Points r.aliases) := fun _ _ _ => Points.unique
  rcases Relation.ReflTransGen.total_of_right_unique hunique (r.canonical_reaches x) hr with h | h
  · exact hstop hend h
  · exact (hstop hy h).symm

theorem Sound.canonical_of_free (h : r.Sound) (hx : r.aliases.get? x = none) : r.canonical x = x :=
  h.canonical_eq .refl hx

theorem Sound.canonical_of_points (h : r.Sound) (hp : Points r.aliases x y) :
    r.canonical x = r.canonical y :=
  h.canonical_eq (.head hp (r.canonical_reaches y)) (h.acyclic.follow_ends y)

theorem Sound.reaches_free_iff (h : r.Sound) (hg : r.aliases.get? alt = none) :
    Reaches r.aliases x alt ↔ r.canonical x = alt := by
  constructor
  · intro hx
    exact h.canonical_eq hx hg
  · rintro rfl
    exact r.canonical_reaches x

theorem Sound.canonical_through (h' : r'.Sound) (hs : SameBeside alt r.aliases r'.aliases)
    (hx : Reaches r.aliases x alt) : r'.canonical x = r'.canonical alt :=
  h'.canonical_eq ((hs.reaches_alt hx).trans (r'.canonical_reaches alt)) (h'.acyclic.follow_ends alt)

theorem Sound.canonical_beside (h : r.Sound) (h' : r'.Sound)
    (hs : SameBeside alt r.aliases r'.aliases) (hx : ¬ Reaches r.aliases x alt) :
    r'.canonical x = r.canonical x := by
  have hne : r.canonical x ≠ alt := fun he => hx (he ▸ r.canonical_reaches x)
  have hend : r'.aliases.get? (r.canonical x) = none :=
    (hs _ hne).trans (h.acyclic.follow_ends x)
  exact h'.canonical_eq (hs.reaches hx (r.canonical_reaches x)) hend

theorem define_beside {d : δ} (hc : r.define name d = .ok r') (hx : x ≠ name) :
    r'.definitions.get? x = r.definitions.get? x := by
  obtain ⟨-, -, rfl⟩ := define_ok hc
  exact (Table.get?_put _ _ _ _).trans (if_neg hx)

theorem addAlias_definitions (hc : r.addAlias name alt = .ok r') : r'.definitions = r.definitions := by
  obtain ⟨-, ⟨-, rfl⟩ | ⟨-, -, rfl⟩ | ⟨-, -, -, rfl⟩⟩ := addAlias_ok hc <;> rfl

structure AlikeBut (r : Registry δ) (name : String) (q : Registry δ) : Prop where
  sound : q.Sound
  definitions {x : String} : x ≠ name → q.definitions.get? x = r.definitions.get? x

theorem AlikeBut.define {q q' : Registry δ} {d : δ} (h : AlikeBut r name q)
    (hc : q.define name d = .ok q') : AlikeBut r name q' where
  sound := h.sound.call (c := .define name d) hc
  definitions hx := (define_beside hc hx).trans (h.definitions hx)

theorem AlikeBut.addAlias {q q' : Registry δ} (h : AlikeBut r name q)
    (hc : q.addAlias x alt = .ok q') : AlikeBut r name q' where
  sound := h.sound.addAlias hc
  definitions hx := by
    rw [addAlias_definitions hc]
    exact h.definitions hx

theorem addAlias_sameBeside (hc : r.addAlias name alt = .ok r') :
    SameBeside alt r.aliases r'.aliases := by
  intro x hx
  obtain ⟨-, ⟨-, rfl⟩ | ⟨-, -, rfl⟩ | ⟨-, -, -, rfl⟩⟩ := addAlias_ok hc
  · rw [Table.get?_erase, if_neg hx]
  · rfl
  · rw [Table.get?_put, if_neg hx]

theorem Sound.canonical_alt (h : r.Sound) (hc : r.addAlias name alt = .ok r') :
    r'.canonical alt = if alt = name then alt else r.canonical name := by
  have h' := h.addAlias hc
  obtain ⟨-, ⟨he, rfl⟩ | ⟨hne, hp, rfl⟩ | ⟨hne, -, -, rfl⟩⟩ := addAlias_ok hc
  · rw [if_pos he]
    exact h'.canonical_of_free (by rw [Table.get?_erase, if_pos rfl])
  · rw [if_neg hne]
    exact h.canonical_of_points hp
  · rw [if_neg hne, h'.canonical_of_points (points_put.mpr (.inl ⟨rfl, rfl⟩))]
    exact h.canonical_beside h' (addAlias_sameBeside hc) ((acyclic_put_iff h.acyclic).mp h'.acyclic)

theorem Sound.canonical_name (h : r.Sound) (hne : alt ≠ name)
    (hc : r.addAlias name alt = .ok r') : r'.canonical name = r.canonical name := by
  have h' := h.addAlias hc
  by_cases hx : Reaches r.aliases name alt
  · rw [h'.canonical_through (addAlias_sameBeside hc) hx, h.canonical_alt hc, if_neg hne]
  · exact h.canonical_beside h' (addAlias_sameBeside hc) hx

/-- Exactly the names whose chains pass the alias move: to where the name leads that it is registered
for or, where it is registered for itself, to the alias. A refused registration changes nothing. -/
theorem repointing_moves (overriding : Bool) (uses : List (RegistryUse δ)) (name alt : String) :
    let r := ({ allowOverriding := overriding } : Registry δ).performAll uses
    (∀ r', r.addAlias name alt = .ok r' → r'.definitions = r.definitions ∧ ∀ x,
      (Reaches r.aliases x alt → r'.canonical x = if alt = name then alt else r.canonical name) ∧
      (¬ Reaches r.aliases x alt → r'.canonical x = r.canonical x)) ∧
    ∀ refusal, r.addAlias name alt = .error refusal →
      r.perform (.call (.addAlias name alt)) = r := by
  intro r
  have hr : r.Sound := (Sound.empty overriding).performAll uses
  refine ⟨fun r' hc => ⟨addAlias_definitions hc, fun x => ?_⟩, fun refusal hc => afterCalls_error hc⟩
  have hr' := hr.addAlias hc
  have hs := addAlias_sameBeside hc
  constructor
  · intro hx
    rw [hr'.canonical_through hs hx, hr.canonical_alt hc]
  · exact hr.canonical_beside hr' hs

end Registry

def branchUses : List (RegistryUse Nat) :=
  [.call (.define "a" 0), .call (.addAlias "a" "b"), .call (.addAlias "b" "c"),
    .call (.addAlias "a" "d"), .call (.addAlias "y" "x")]

theorem branchUses_sides :
    let r := ({} : Registry Nat).performAll branchUses
    Reaches r.aliases "c" "b" ∧ ¬ Reaches r.aliases "d" "b" := by
  refine ⟨.single rfl, fun hd => ?_⟩
  rcases hd.cases_head with he | ⟨next, hp, ha⟩
  · exact absurd he (by decide)
  obtain rfl : "a" = next := Option.some.inj hp
  rcases ha.cases_head with he | ⟨next, hp, -⟩
  · exact absurd he (by decide)
  · cases hp

theorem branchUses_moves :
    let r := ({} : Registry Nat).performAll branchUses
    (∃ r', r.addAlias "x" "b" = .ok r' ∧ r'.canonical "c" = "y" ∧ r'.canonical "d" = "a") ∧
      (∃ r', r.addAlias "b" "b" = .ok r' ∧ r'.canonical "c" = "b" ∧ r'.canonical "d" = "a") ∧
      r.addAlias "c" "b" = .error (.aliasCycle "b" "c") ∧
      r.perform (.call (.addAlias "c" "b")) = r := by
  intro r
  obtain ⟨hc, hd⟩ := branchUses_sides
  have hmove := (Registry.repointing_moves true branchUses "x" "b").1 _ rfl
  have hfree := (Registry.repointing_moves true branchUses "b" "b").1 _ rfl
  have hrefused : r.addAlias "c" "b" = .error (.aliasCycle "b" "c") := rfl
  refine ⟨⟨_, rfl, (hmove.2 "c").1 hc, (hmove.2 "d").2 hd⟩,
    ⟨_, rfl, (hfree.2 "c").1 hc, (hfree.2 "d").2 hd⟩, hrefused, ?_⟩
  exact (Registry.repointing_moves true branchUses "c" "b").2 _ hrefused

end BeanCatalog
