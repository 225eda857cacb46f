import BeanCatalog.Proofs.Registry.Chains

namespace BeanCatalog

inductive RegistryUse (δ : Type) where
  | call (c : RegistryCall δ)
  | holder (name : String) (d : δ) (aliases : List String)
  | allow (overriding : Bool)

def RegistryUse.calls {δ : Type} : RegistryUse δ → List (RegistryCall δ)
  | .call c => [c]
  | .holder name d aliases => RegistryCall.all name d aliases
  | .allow _ => []

namespace Registry

variable {δ : Type}

def afterCalls (r : Registry δ) (cs : List (RegistryCall δ)) : Registry δ :=
  (r.calls (fun _ _ => false) cs).registry

def perform (r : Registry δ) : RegistryUse δ → Registry δ
  | .allow overriding => { r with allowOverriding := overriding }
  | u => r.afterCalls u.calls

def performAll (r : Registry δ) (uses : List (RegistryUse δ)) : Registry δ := uses.foldl perform r

def MayAlias (r : Registry δ) (name alt : String) : Prop :=
  r.allowOverriding = true ∨ ∀ registered, r.aliases.get? alt = some registered → registered = name

structure Sound (r : Registry δ) : Prop where
  acyclic : Acyclic r.aliases
  named {x y : String} : Points r.aliases x y → x ≠ "" ∧ y ≠ ""

variable {r r' : Registry δ} {name alt x y : String} {c : RegistryCall δ}
  {cs : List (RegistryCall δ)}

theorem afterCalls_ok (h : r.call c = .ok r') : r.afterCalls (c :: cs) = r'.afterCalls cs := by
  simp only [afterCalls, calls, h]

theorem afterCalls_error {refusal : Refusal} (h : r.call c = .error refusal) :
    r.afterCalls (c :: cs) = r := by
  simp only [afterCalls, calls, h]

theorem afterCalls_induct {P : Registry δ → Prop}
    (hstep : ∀ c ∈ cs, ∀ q q', P q → q.call c = .ok q' → P q') (hr : P r) :
    P (r.afterCalls cs) := by
  induction cs generalizing r with
  | nil => exact hr
  | cons c cs ih =>
    cases h : r.call c with
    | error refusal =>
      rw [afterCalls_error h]
      exact hr
    | ok r' =>
      rw [afterCalls_ok h]
      apply ih (fun d hd => hstep d (List.mem_cons_of_mem c hd))
      exact hstep c List.mem_cons_self r r' hr h

section

variable {P : Registry δ → Prop} {aliases : List String}

theorem afterAliases_induct
    (halias : ∀ alt ∈ aliases, ∀ q q', P q → q.addAlias name alt = .ok q' → P q') (hr : P r) :
    P (r.afterCalls (aliases.map (.addAlias name))) := by
  apply afterCalls_induct (fun c hm q q' hq hc => ?_) hr
  obtain ⟨alt, ha, rfl⟩ := List.mem_map.mp hm
  exact halias alt ha q q' hq hc

theorem afterHolder_induct {d : δ} (hdefine : ∀ q q', P q → q.define name d = .ok q' → P q')
    (halias : ∀ alt ∈ aliases, ∀ q q', P q → q.addAlias name alt = .ok q' → P q') (hr : P r) :
    P (r.afterCalls (RegistryCall.all name d aliases)) := by
  apply afterCalls_induct (fun c hm q q' hq hc => ?_) hr
  rcases List.mem_cons.mp hm with rfl | hm
  · exact hdefine q q' hq hc
  · obtain ⟨alt, ha, rfl⟩ := List.mem_map.mp hm
    exact halias alt ha q q' hq hc

end

theorem define_ok {d : δ} (h : r.define name d = .ok r') : name ≠ "" ∧
    (r.allowOverriding = true ∨ r.definitions.has name = false) ∧
    r' = { r with definitions := r.definitions.put name d } := by
  unfold define at h
  split at h
  · cases h
  next hn =>
  split at h
  · cases h
  next ht =>
    refine ⟨hn, ?_, (Except.ok.inj h).symm⟩
    cases ho : r.allowOverriding with
    | true => exact .inl rfl
    | false => simpa [ho] using ht

theorem addAlias_put (hn : ¬ (name = "" ∨ alt = "")) (hs : alt ≠ name)
    (hp : r.aliases.get? alt ≠ some name)
    (hfree : r.allowOverriding = true ∨ r.aliases.get? alt = none) :
    r.addAlias name alt = if r.leadsTo name alt then .error (.aliasCycle alt name)
      else .ok { r with aliases := r.aliases.put alt name } := by
  unfold addAlias
  rw [if_neg hn, if_neg hs, if_neg hp]
  rcases hfree with ho | hg
  · rw [ho]
    cases r.aliases.get? alt <;> rfl
  · rw [hg]

theorem addAlias_taken {registered : String} (hn : ¬ (name = "" ∨ alt = "")) (hs : alt ≠ name)
    (hp : r.aliases.get? alt ≠ some name) (hg : r.aliases.get? alt = some registered)
    (ho : r.allowOverriding = false) :
    r.addAlias name alt = .error (.aliasTaken alt name registered) := by
  unfold addAlias
  rw [if_neg hn, if_neg hs, if_neg hp, hg, ho]

theorem addAlias_ok (h : r.addAlias name alt = .ok r') : (name ≠ "" ∧ alt ≠ "") ∧
    (alt = name ∧ r' = { r with aliases := r.aliases.erase alt } ∨
      alt ≠ name ∧ r.aliases.get? alt = some name ∧ r' = r ∨
      alt ≠ name ∧ (r.allowOverriding = true ∨ r.aliases.get? alt = none) ∧
        r.leadsTo name alt = false ∧ r' = { r with aliases := r.aliases.put alt name }) := by
  by_cases hn : name = "" ∨ alt = ""
  · rw [addAlias, if_pos hn] at h
    cases h
  refine ⟨not_or.mp hn, ?_⟩
  by_cases hs : alt = name
  · rw [addAlias, if_neg hn, if_pos hs] at h
    exact .inl ⟨hs, (Except.ok.inj h).symm⟩
  by_cases hp : r.aliases.get? alt = some name
  · rw [addAlias, if_neg hn, if_neg hs, if_pos hp] at h
    exact .inr (.inl ⟨hs, hp, (Except.ok.inj h).symm⟩)
  have hfree : r.allowOverriding = true ∨ r.aliases.get? alt = none := by
    cases ho : r.allowOverriding with
    | true => exact .inl rfl
    | false =>
      cases hg : r.aliases.get? alt with
      | none => exact .inr rfl
      | some registered =>
        rw [addAlias_taken hn hs hp hg ho] at h
        cases h
  rw [addAlias_put hn hs hp hfree] at h
  cases hl : r.leadsTo name alt with
  | true =>
    rw [hl] at h
    cases h
  | false =>
    rw [hl] at h
    exact .inr (.inr ⟨hs, hfree, rfl, (Except.ok.inj h).symm⟩)

theorem leadsTo_iff (h : Acyclic r.aliases) : r.leadsTo name alt = true ↔ Leads r.aliases name alt := by
  rw [leadsTo, meetsAlias_iff]
  constructor
  · rintro ⟨m, -, hm⟩
    exact aliasAt_leads hm
  · intro hl
    obtain ⟨m, hm⟩ := Leads.aliasAt hl
    exact ⟨m, h.steps_le hm, hm⟩

theorem isAlias_eq_false_iff : r.isAlias x = false ↔ r.aliases.get? x = none := by
  rw [isAlias, Table.has, ← Bool.not_eq_true, Option.not_isSome_iff_eq_none]

namespace Sound

theorem canonical_ends (h : r.Sound) (name : String) : r.isAlias (r.canonical name) = false := by
  rw [isAlias, Table.has, canonical, h.acyclic.follow_ends]
  rfl

theorem not_leads (h : r.Sound) (hn : name = "" ∨ alt = "") : ¬ Leads r.aliases name alt := by
  intro hl
  obtain ⟨next, hp, -⟩ := (Relation.TransGen.head'_iff).mp hl
  obtain ⟨last, -, hq⟩ := (Relation.TransGen.tail'_iff).mp hl
  rcases hn with rfl | rfl
  · exact (h.named hp).1 rfl
  · exact (h.named hq).2 rfl

theorem addAlias (h : r.Sound) (hc : r.addAlias name alt = .ok r') : r'.Sound := by
  obtain ⟨hnames, ⟨-, rfl⟩ | ⟨-, -, rfl⟩ | ⟨hne, -, hl, rfl⟩⟩ := addAlias_ok hc
  · refine ⟨h.acyclic.erase alt, fun {x y} hp => h.named (x := x) (y := y) ?_⟩
    simp only [Points, Table.get?_erase] at hp
    by_cases hx : x = alt
    · simp [hx] at hp
    · simpa [Points, hx] using hp
  · exact h
  · constructor
    · apply (acyclic_put_iff h.acyclic).mpr
      intro hr
      rcases Relation.reflTransGen_iff_eq_or_transGen.mp hr with rfl | hr
      · exact hne rfl
      · rw [(leadsTo_iff h.acyclic).mpr hr] at hl
        cases hl
    · intro x y hp
      rcases points_put.mp hp with ⟨rfl, rfl⟩ | ⟨-, hp⟩
      · exact hnames.symm
      · exact h.named hp

theorem call (h : r.Sound) (hc : r.call c = .ok r') : r'.Sound := by
  cases c with
  | define name d =>
    obtain ⟨-, -, rfl⟩ := define_ok hc
    exact ⟨h.acyclic, h.named⟩
  | addAlias name alt => exact h.addAlias hc

theorem afterCalls (h : r.Sound) (cs : List (RegistryCall δ)) : (r.afterCalls cs).Sound :=
  afterCalls_induct (fun _ _ _ _ hq hc => hq.call hc) h

theorem perform (h : r.Sound) (u : RegistryUse δ) : (r.perform u).Sound := by
  cases u with
  | allow overriding => exact ⟨h.acyclic, h.named⟩
  | call c => exact h.afterCalls _
  | holder name d aliases => exact h.afterCalls _

theorem performAll (h : r.Sound) (uses : List (RegistryUse δ)) : (r.performAll uses).Sound := by
  induction uses generalizing r with
  | nil => exact h
  | cons u uses ih => exact ih (h.perform u)

theorem empty (overriding : Bool) : ({ allowOverriding := overriding } : Registry δ).Sound := by
  have hnone : ∀ x y, ¬ Points [] x y := fun x y hp => by cases hp
  refine ⟨fun x hx => ?_, fun {x y} hp => absurd hp (hnone x y)⟩
  obtain ⟨next, hp, -⟩ := (Relation.TransGen.head'_iff).mp hx
  exact hnone x next hp

end Sound

theorem addAlias_cycle_iff (h : r.Sound) (hne : alt ≠ name) (hm : r.MayAlias name alt) :
    r.addAlias name alt = .error (.aliasCycle alt name) ↔ ¬ Acyclic (r.aliases.put alt name) := by
  have hreaches : Reaches r.aliases name alt ↔ Leads r.aliases name alt :=
    Relation.reflTransGen_iff_eq_or_transGen.trans (or_iff_right hne)
  rw [acyclic_put_iff h.acyclic, not_not, hreaches, ← leadsTo_iff h.acyclic]
  by_cases hn : name = "" ∨ alt = ""
  · have hl : r.leadsTo name alt ≠ true := fun hl => h.not_leads hn ((leadsTo_iff h.acyclic).mp hl)
    simp [Registry.addAlias, hn, hl]
  by_cases hp : r.aliases.get? alt = some name
  · have hl : r.leadsTo name alt ≠ true := by
      intro hl
      exact h.acyclic alt (.head hp ((leadsTo_iff h.acyclic).mp hl))
    simp [Registry.addAlias, hn, hne, hp, hl]
  have hfree : r.allowOverriding = true ∨ r.aliases.get? alt = none := by
    refine hm.imp_right fun hm => ?_
    cases hg : r.aliases.get? alt with
    | none => rfl
    | some registered => exact absurd (hm registered hg ▸ hg) hp
  rw [addAlias_put hn hne hp hfree]
  cases r.leadsTo name alt <;> simp

/-- Whatever is done to an empty registry, alias steps never meet a name twice, so each chain ends, and
an alias is refused for a cycle just when it would close one. -/
theorem alias_chains_end (overriding : Bool) (uses : List (RegistryUse δ)) :
    let r := ({ allowOverriding := overriding } : Registry δ).performAll uses
    (∀ name x m n, aliasAt r.aliases m name = some x → aliasAt r.aliases n name = some x → m = n) ∧
    (∀ name, (∃ n, aliasAt r.aliases n name = some (r.canonical name)) ∧
      r.isAlias (r.canonical name) = false) ∧
    ∀ name alt, alt ≠ name → r.MayAlias name alt →
      (r.addAlias name alt = .error (.aliasCycle alt name) ↔
        ∃ x, Leads (r.aliases.put alt name) x x) := by
  intro r
  have hr : r.Sound := (Sound.empty overriding).performAll uses
  refine ⟨fun name x m n => hr.acyclic.aliasAt_inj, fun name => ⟨?_, hr.canonical_ends name⟩, ?_⟩
  · obtain ⟨m, -, hm, -⟩ := followAliases_at r.aliases r.aliases.length name
    exact ⟨m, hm⟩
  · intro name alt hne hm
    rw [addAlias_cycle_iff hr hne hm, Acyclic]
    push Not
    rfl

end Registry

def chainUses : List (RegistryUse Nat) :=
  [.call (.addAlias "a" "b"), .allow false, .call (.addAlias "d" "b"), .holder "b" 0 ["c", "b", "d"],
    .call (.addAlias "a" "b"), .call (.addAlias "c" "c"), .allow true, .call (.addAlias "b" "c")]

theorem chainUses_loop_refused :
    let r := ({} : Registry Nat).performAll chainUses
    "a" ≠ "c" ∧ r.MayAlias "c" "a" ∧ (r.addAlias "c" "a" = .error (.aliasCycle "a" "c")) ∧
      ∃ x, Leads (r.aliases.put "a" "c") x x := by
  intro r
  have hne : "a" ≠ "c" := by decide
  have hm : r.MayAlias "c" "a" := .inl rfl
  have hrefused : r.addAlias "c" "a" = .error (.aliasCycle "a" "c") := by rfl
  have hiff := (Registry.alias_chains_end true chainUses).2.2 "c" "a" hne hm
  exact ⟨hne, hm, hrefused, hiff.mp hrefused⟩

end BeanCatalog
