import BeanCatalog.Proofs.Loading.Blindness
import BeanCatalog.Proofs.Loading.Replay
import BeanCatalog.Xml.Document

namespace BeanCatalog

namespace Element

variable (judge : Element → Except ProfileError Bool)

mutual

/-- A scope without the scopes in it that are rejected, at any depth to which it is read. -/
def pruned : Element → Element
  | ⟨tag, uri, attributes, contents, line⟩ =>
    match isDefaultNamespace uri, judge ⟨tag, uri, attributes, contents, line⟩ with
    | true, .ok true => ⟨tag, uri, attributes, prunedContents contents, line⟩
    | _, _ => ⟨tag, uri, attributes, contents, line⟩

def prunedContents : List (Content Element) → List (Content Element)
  | [] => []
  | .text s :: rest => .text s :: prunedContents rest
  | .element e :: rest =>
    match e.isDefault && e.kind = .beans, judge e with
    | false, _ => .element e :: prunedContents rest
    | true, .ok false => prunedContents rest
    | true, _ => .element (pruned e) :: prunedContents rest

end

theorem pruned_scope {e : Element} (h : e.isDefault = true ∧ e.kind = .beans) :
    (e.pruned judge).isDefault = true ∧ (e.pruned judge).kind = .beans := by
  obtain ⟨tag, uri, attributes, contents, line⟩ := e
  rw [pruned]
  split <;> exact h

end Element

inductive JournalEntry.Pruned (judge : Element → Except ProfileError Bool) :
    JournalEntry → JournalEntry → Prop
  | same (entry : JournalEntry) : Pruned judge entry entry
  | opened (scope : Element) : Pruned judge (.opened scope) (.opened (scope.pruned judge))
  | closed (scope : Element) : Pruned judge (.closed scope) (.closed (scope.pruned judge))

def JournalEntry.counts : JournalEntry → Bool
  | .remark (.profilesRejected ..) => false
  | _ => true

/-- Journals that are the same, but for rejected scopes. -/
def PrunedAlike (judge : Element → Except ProfileError Bool) (journal journal' : List JournalEntry) :
    Prop :=
  List.Forall₂ (JournalEntry.Pruned judge) (journal.filter (·.counts)) (journal'.filter (·.counts))

section

variable {judge : Element → Except ProfileError Bool} {journal journal' : List JournalEntry}

theorem Congruent.pruned : Congruent (PrunedAlike judge) where
  refl journal := List.forall₂_same.mpr fun entry _ => .same entry
  append hfirst hrest := by
    unfold PrunedAlike
    rw [List.filter_append, List.filter_append]
    exact List.rel_append hfirst hrest

theorem PrunedAlike.filterMap_eq {β : Type} {f : JournalEntry → Option β}
    (ho : ∀ scope, f (.opened scope) = none) (hc : ∀ scope, f (.closed scope) = none)
    (hr : ∀ r, f (.remark r) = none) (h : PrunedAlike judge journal journal') :
    journal.filterMap f = journal'.filterMap f := by
  have hcounts (journal : List JournalEntry) :
      (journal.filter (·.counts)).filterMap f = journal.filterMap f := by
    rw [List.filterMap_filter]
    apply List.filterMap_congr
    intro entry _
    cases entry with
    | remark r => cases r <;> simp [JournalEntry.counts, hr]
    | _ => rfl
  rw [← hcounts journal, ← hcounts journal']
  unfold PrunedAlike at h
  generalize journal.filter (·.counts) = told at h
  generalize journal'.filter (·.counts) = told' at h
  induction h with
  | nil => rfl
  | cons he _ ih =>
    rw [List.filterMap_cons, List.filterMap_cons, ih]
    cases he with
    | same => rfl
    | opened scope => rw [ho, ho]
    | closed scope => rw [hc, hc]

end

namespace Reading.Agree

variable {α : Type} {judge : Element → Except ProfileError Bool}

theorem enter_pruned {entry entry' : JournalEntry} (h : entry.Pruned judge entry')
    (hc : entry.counts = true) (hc' : entry'.counts = true) :
    Agree (PrunedAlike judge) (enter entry) (enter entry') := by
  intro s
  refine ⟨.ok (), s, [entry], [entry'], ?_, fun _ => rfl, fun _ => rfl⟩
  unfold PrunedAlike
  rw [List.filter_cons_of_pos hc, List.filter_cons_of_pos hc']
  exact .cons h .nil

theorem after_rejected {act act' : Reading α} (spec description : String)
    (h : Agree (PrunedAlike judge) act act') :
    Agree (PrunedAlike judge) (remark (.profilesRejected spec description) >>= fun _ => act) act' := by
  intro s
  obtain ⟨o, t, journal, journal', halike, hact, hact'⟩ := h s
  refine ⟨o, t, .remark (.profilesRejected spec description) :: journal, journal', halike,
    fun entries => ?_, hact'⟩
  change act { s with entries := .remark (.profilesRejected spec description) :: entries } = _
  refine (hact _).trans ?_
  simp

end Reading.Agree

namespace Loader

variable {l : Loader}

theorem readScope_contents {importer : Importer} (r : Resource) (outer : Defaults) {e : Element}
    {contents : List (Content Element)} (hd : e.isDefault = true)
    (hj : l.documents.judge l.environment e = .ok true)
    (hp : e.pruned (l.documents.judge l.environment) = { e with contents := contents })
    (h : Reading.Agree (PrunedAlike (l.documents.judge l.environment))
      (l.documents.readContents ⟨l.context importer r, outer.enter e⟩ e.contents)
      (l.documents.readContents ⟨l.context importer r, outer.enter e⟩ contents)) :
    Reading.Agree (PrunedAlike (l.documents.judge l.environment))
      (l.documents.readScope (l.context importer r) outer e)
      (l.documents.readScope (l.context importer r) outer { e with contents := contents }) := by
  let e' : Element := { e with contents := contents }
  have hpruned : e.pruned (l.documents.judge l.environment) = e' := hp
  have hadmits : l.documents.admits (l.context importer r) e' = pure true :=
    DocumentReader.admits_accepted hd hj
  have hinside : l.documents.readInside ⟨l.context importer r, outer.enter e'⟩ e' =
      l.documents.readContents ⟨l.context importer r, outer.enter e⟩ contents :=
    DocumentReader.readInside_default hd
  rw [DocumentReader.readScope_admitted (DocumentReader.admits_accepted hd hj),
    DocumentReader.readInside_default hd, DocumentReader.readScope_admitted hadmits, hinside]
  refine .bind .pruned (.of_blind .pruned ((steps_blind importer importer r).fire (.defaults _ _)))
    fun _ => ?_
  refine .bind .pruned (.enter_pruned (hpruned ▸ .opened e) rfl rfl) fun _ => ?_
  refine .bind .pruned (.withFreshNames h) fun _ => ?_
  exact .enter_pruned (hpruned ▸ .closed e) rfl rfl

mutual

theorem readScope_pruned
    (hh : ∀ uri handler, l.documents.handlers.get? uri = some handler → handler.Blind)
    {importer : Importer} (hi : importer.Blind) (r : Resource) (outer : Defaults) : (e : Element) →
    Reading.Agree (PrunedAlike (l.documents.judge l.environment))
      (l.documents.readScope (l.context importer r) outer e)
      (l.documents.readScope (l.context importer r) outer
        (e.pruned (l.documents.judge l.environment)))
  | ⟨tag, uri, attributes, contents, line⟩ => by
    have hcontents := readContents_pruned hh hi r
      (outer.enter ⟨tag, uri, attributes, contents, line⟩) contents
    have hp := Element.pruned.eq_1 (l.documents.judge l.environment) tag uri attributes contents line
    split at hp
    case h_1 hd hj =>
      rw [hp]
      exact readScope_contents r outer hd hj hp hcontents
    case h_2 =>
      rw [hp]
      exact .of_blind .pruned ((layered_blind hh).readScope hi outer _ r)

theorem readContents_pruned
    (hh : ∀ uri handler, l.documents.handlers.get? uri = some handler → handler.Blind)
    {importer : Importer} (hi : importer.Blind) (r : Resource) (defaults : Defaults) :
    (contents : List (Content Element)) →
    Reading.Agree (PrunedAlike (l.documents.judge l.environment))
      (l.documents.readContents ⟨l.context importer r, defaults⟩ contents)
      (l.documents.readContents ⟨l.context importer r, defaults⟩
        (Element.prunedContents (l.documents.judge l.environment) contents))
  | [] => by
    rw [Element.prunedContents, DocumentReader.readContents]
    exact .pure .pruned ()
  | .text s :: rest => by
    rw [Element.prunedContents, DocumentReader.readContents, DocumentReader.readContents]
    exact readContents_pruned hh hi r defaults rest
  | .element e :: rest => by
    have hrest := readContents_pruned hh hi r defaults rest
    have hscope := readScope_pruned hh hi r defaults e
    rw [Element.prunedContents, DocumentReader.readContents_element]
    split
    case h_1 =>
      rw [DocumentReader.readContents_element]
      have helement := (layered_blind hh).readElement hi defaults e r
      exact .bind .pruned (.of_blind .pruned helement) fun _ => hrest
    case h_2 hs hj =>
      -- The pruned contents go on without the scope, of which only a remark is left here.
      rw [Bool.and_eq_true, decide_eq_true_iff] at hs
      rw [DocumentReader.readElement_scope defaults hs.1 hs.2,
        DocumentReader.readScope_rejected defaults hs.1 hj]
      exact hrest.after_rejected _ _
    case h_3 hs hj =>
      rw [Bool.and_eq_true, decide_eq_true_iff] at hs
      have hs' := Element.pruned_scope (l.documents.judge l.environment) hs
      rw [DocumentReader.readContents_element, DocumentReader.readElement_scope defaults hs.1 hs.2,
        DocumentReader.readElement_scope defaults hs'.1 hs'.2]
      exact .bind .pruned hscope fun _ => hrest

end

theorem registerDocument_agrees
    (hh : ∀ uri handler, l.documents.handlers.get? uri = some handler → handler.Blind)
    {importer : Importer} (hi : importer.Blind) (root : Element) (r : Resource) :
    Reading.Agree (PrunedAlike (l.documents.judge l.environment))
      (l.registerDocument importer root r)
      (l.registerDocument importer (root.pruned (l.documents.judge l.environment)) r) := by
  refine .session (fun before => ?_) (fun s entries => rfl) fun s entries => rfl
  refine .bind .pruned (readScope_pruned hh hi r [] root) fun _ => ?_
  exact .session (fun after => .pure .pruned _) (fun s entries => rfl) fun s entries => rfl

theorem registerDocument_rejected (importer : Importer) {root : Element} (r : Resource)
    (s : Session) (hd : root.isDefault = true)
    (hj : l.documents.judge l.environment root = .ok false) :
    l.registerDocument importer root r s =
      (.ok 0, { s with
        entries :=
          .remark (.profilesRejected (root.attr "profile") r.description) :: s.entries }) := by
  have hread : l.documents.readScope (l.context importer r) [] root =
      Reading.remark (.profilesRejected (root.attr "profile") r.description) :=
    DocumentReader.readScope_rejected [] hd hj
  unfold registerDocument DocumentReader.read
  rw [hread]
  have hnone : s.registry.size - s.registry.size = 0 := Nat.sub_self _
  rw [← hnone]
  rfl

/-- A document reads as it does without the scopes in it that are rejected: it comes to the same, and
leaves the same registry, events and problems and the same scopes opened and closed. A document that
is rejected itself is only remarked upon. -/
theorem registerDocument_pruned
    (hh : ∀ uri handler, l.documents.handlers.get? uri = some handler → handler.Blind) (depth : Nat)
    (root : Element) (r : Resource) (s : Session) :
    (∃ (o : Except Failure Nat) (t : Session) (journal journal' : List JournalEntry),
      l.registerDocument (l.importer depth) root r s =
          (o, { t with entries := journal.reverse ++ s.entries }) ∧
        l.registerDocument (l.importer depth) (root.pruned (l.documents.judge l.environment)) r s =
          (o, { t with entries := journal'.reverse ++ s.entries }) ∧
        PrunedAlike (l.documents.judge l.environment) journal journal' ∧
        eventsOf journal = eventsOf journal' ∧ problemsIn journal = problemsIn journal') ∧
      (root.isDefault = true → l.documents.judge l.environment root = .ok false →
        l.registerDocument (l.importer depth) root r s =
          (.ok 0, { s with
            entries := .remark (.profilesRejected (root.attr "profile") r.description) ::
              s.entries })) := by
  refine ⟨?_, registerDocument_rejected _ r s⟩
  obtain ⟨o, t, journal, journal', halike, hact, hact'⟩ :=
    registerDocument_agrees hh (importer_blind hh depth) root r s
  refine ⟨o, t, journal, journal', hact s.entries, hact' s.entries, halike, ?_, ?_⟩
  · exact halike.filterMap_eq (fun _ => rfl) (fun _ => rfl) fun _ => rfl
  · exact halike.filterMap_eq (fun _ => rfl) (fun _ => rfl) fun _ => rfl

end Loader

theorem Handler.plain_blind (name : String) : (Handler.plain name).Blind where
  parse _ _ _ := .bind (.take _ _ _) fun _ => .pure none
  decorate _ _ holder _ _ := .pure holder

def profileScope (profile : String) (contents : List (Content Element)) : Element :=
  ⟨"beans", none, [("profile", profile)], contents, some 1⟩

def profileBean (id : String) : Element := ⟨"bean", none, [("id", id), ("class", "C")], [], some 1⟩

def profileRoot : Element :=
  profileScope "dev"
    [.element (profileBean "a"), .element (profileScope "prod" [.element (profileBean "b")]),
      .element ⟨"node", some "urn:x", [], [], some 1⟩,
      .element (profileScope "dev" [.element (profileScope "!dev" [.element (profileBean "c")])]),
      .element (profileBean "d")]

def profileLoader : Loader where
  workspace :=
    { tree := ⟨[], []⟩
      current := ["tmp", "vfs"]
      packageRoot := ["tmp", "packages"]
      packages := [] }
  parse := Xml.parse
  environment := .create (some ["dev"]) Environment.standardDefaults []
  reporter := .collecting
  listening := true
  documents := { handlers := [("urn:x", .plain "x")] }

def profileRun (root : Element) : Except Failure Nat × Session :=
  profileLoader.registerDocument (profileLoader.importer 0) root (.bytes [] none) {}

theorem profileLoader_blind (uri : String) (handler : Handler)
    (h : profileLoader.documents.handlers.get? uri = some handler) : handler.Blind := by
  obtain ⟨-, rfl⟩ : uri = "urn:x" ∧ handler = .plain "x" := by
    unfold profileLoader Table.get? at h
    rw [List.lookup_cons] at h
    split at h
    · next heq => exact ⟨eq_of_beq heq, (Option.some.inj h).symm⟩
    · cases h
  exact Handler.plain_blind "x"

theorem profileRoot_pruned :
    (∀ uri handler, profileLoader.documents.handlers.get? uri = some handler → handler.Blind) ∧
      (profileRun profileRoot).2.registry.names = ["a", "d"] ∧
      (profileRun (profileRoot.pruned
        (profileLoader.documents.judge profileLoader.environment))).2.registry.names = ["a", "d"] ∧
      (profileRun (profileScope "prod" [.element (profileBean "b")])).2.registry.names = [] := by
  have hnames : (profileRun profileRoot).2.registry.names = ["a", "d"] := by decide +kernel
  obtain ⟨⟨o, t, journal, journal', hrun, hrun', -⟩, -⟩ :=
    Loader.registerDocument_pruned profileLoader_blind 0 profileRoot (.bytes [] none) {}
  have hrejected := (Loader.registerDocument_pruned profileLoader_blind 0
    (profileScope "prod" [.element (profileBean "b")]) (.bytes [] none) {}).2 rfl (by decide +kernel)
  refine ⟨profileLoader_blind, hnames, ?_, ?_⟩
  · unfold profileRun at hnames ⊢
    rw [hrun] at hnames
    rw [hrun']
    exact hnames
  · unfold profileRun
    rw [hrejected]
    rfl

end BeanCatalog
