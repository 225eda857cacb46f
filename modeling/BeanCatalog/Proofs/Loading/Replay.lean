import BeanCatalog.Proofs.Loading.Journals
import BeanCatalog.Xml.Document

namespace BeanCatalog

def Event.calls : Event → List (RegistryCall Definition)
  | .aliased name alt _ => [.addAlias name alt]
  | .component holder _ => holder.calls
  | .defaults .. | .imported .. => []

def eventsOf (journal : List JournalEntry) : List Event :=
  journal.filterMap fun
    | .event e => some e
    | _ => none

def problemsIn (journal : List JournalEntry) : List (Severity × Problem) :=
  journal.filterMap fun
    | .problem severity p => some (severity, p)
    | _ => none

namespace Registry

def callAll {δ : Type} (r : Registry δ) (cs : List (RegistryCall δ)) :
    Except Refusal (Registry δ) :=
  cs.foldlM call r

def replayEvents (r : Registry Definition) (events : List Event) :
    Except Refusal (Registry Definition) :=
  events.foldlM (fun r e => r.callAll e.calls) r

end Registry

def NoDefinitionRefused (journal : List JournalEntry) : Prop :=
  ∀ p ∈ problemsOf .error journal, ∀ name, p.fault ≠ .definitionRefused name

/-- Unless a definition was refused, the events rebuild the registry. -/
def Rebuilds (r : Registry Definition) (journal : List JournalEntry) (r' : Registry Definition) :
    Prop :=
  NoDefinitionRefused journal → r.replayEvents (eventsOf journal) = .ok r'

theorem Registry.callAll_accepted {δ : Type} {r : Registry δ} {cs : List (RegistryCall δ)}
    (hc : (r.calls (fun _ _ => false) cs).refusal = none) : r.callAll cs = .ok (r.afterCalls cs) := by
  induction cs generalizing r with
  | nil => rfl
  | cons c cs ih =>
    unfold callAll
    rw [List.foldlM_cons]
    cases h : r.call c with
    | error refusal => simp [calls, h] at hc
    | ok next =>
      rw [afterCalls_ok h]
      apply ih
      simpa [calls, h] using hc

theorem Registry.afterCalls_refused {δ : Type} {r : Registry δ} {c : RegistryCall δ}
    {refusal : Refusal} (hc : (r.calls (fun _ _ => false) [c]).refusal = some refusal) :
    r.afterCalls [c] = r := by
  cases h : r.call c with
  | error refusal => exact afterCalls_error h
  | ok next => simp [calls, h] at hc

theorem eventsOf_append (first rest : List JournalEntry) :
    eventsOf (first ++ rest) = eventsOf first ++ eventsOf rest := List.filterMap_append

theorem problemsOf_append (severity : Severity) (first rest : List JournalEntry) :
    problemsOf severity (first ++ rest) = problemsOf severity first ++ problemsOf severity rest :=
  List.filterMap_append

theorem problemsIn_append (first rest : List JournalEntry) :
    problemsIn (first ++ rest) = problemsIn first ++ problemsIn rest := List.filterMap_append

theorem problemsIn_remarks (remarks : List Remark) :
    problemsIn (remarks.map JournalEntry.remark) = [] := by
  simp [problemsIn, List.filterMap_map]

theorem eventsOf_remarks (remarks : List Remark) :
    eventsOf (remarks.map JournalEntry.remark) = [] := by
  simp [eventsOf, List.filterMap_map]

theorem eventsOf_registered (r : Registry Definition) (calls : List (RegistryCall Definition)) :
    eventsOf (Reading.registered r calls) = [] := by
  simp [eventsOf, Reading.registered, Reading.replacedRemarks, List.filterMap_map]

theorem problemsOf_registered (severity : Severity) (r : Registry Definition)
    (calls : List (RegistryCall Definition)) :
    problemsOf severity (Reading.registered r calls) = [] := by
  simp [problemsOf, Reading.registered, Reading.replacedRemarks, List.filterMap_map]

theorem NoDefinitionRefused.append {first rest : List JournalEntry}
    (h : NoDefinitionRefused (first ++ rest)) :
    NoDefinitionRefused first ∧ NoDefinitionRefused rest := by
  unfold NoDefinitionRefused at h
  rw [problemsOf_append] at h
  exact ⟨fun p hp => h p (List.mem_append_left _ hp), fun p hp => h p (List.mem_append_right _ hp)⟩

theorem Enrolment.event_calls (source : SourceLocation) (enrolment : Enrolment) :
    (enrolment.event source).calls = enrolment.calls := by
  cases enrolment <;> rfl

theorem replayEvents_enrolled {r r' : Registry Definition} {enrolment : Enrolment}
    (source : SourceLocation) (h : r.callAll enrolment.calls = .ok r') :
    r.replayEvents [enrolment.event source] = .ok r' := by
  unfold Registry.replayEvents
  rw [List.foldlM_cons, Enrolment.event_calls, h]
  rfl

/-- A further name that is refused leaves the registry alone. A bean need not, since its definition
may be in before one of its names is refused, but then the definition counts as refused. -/
theorem Rebuilds.refused {r : Registry Definition} {enrolment : Enrolment} {refusal : Refusal}
    {ctx : Context} {e : Element} (remarks : List Remark)
    (hc : (r.calls (fun _ _ => false) enrolment.calls).refusal = some refusal) :
    Rebuilds r (Reading.registered r enrolment.calls ++
      JournalEntry.problem .error (ctx.problem enrolment.fault e (some (.refused refusal))) ::
        remarks.map JournalEntry.remark) (r.afterCalls enrolment.calls) := by
  intro hno
  cases enrolment with
  | naming name alt =>
    rw [Enrolment.calls] at hc ⊢
    rw [Registry.afterCalls_refused hc, eventsOf_append, eventsOf_registered]
    have hrest : eventsOf (remarks.map JournalEntry.remark) = [] := eventsOf_remarks remarks
    change r.replayEvents (eventsOf (remarks.map JournalEntry.remark)) = _
    rw [hrest]
    rfl
  | bean holder =>
    have hp := hno.append.2 _ (List.mem_cons_self ..) holder.name
    exact absurd rfl hp

namespace Loader

variable {l : Loader}

theorem rebuilds_law (hl : l.listening = true) : JournalLaw l Rebuilds where
  nil r _ := rfl
  append := by
    intro r r' r'' first rest hfirst hrest hno
    unfold Registry.replayEvents
    rw [eventsOf_append, List.foldlM_append]
    have hstart : r.replayEvents (eventsOf first) = .ok r' := hfirst hno.append.1
    have hend : r'.replayEvents (eventsOf rest) = .ok r'' := hrest hno.append.2
    unfold Registry.replayEvents at hstart hend
    rw [hstart]
    exact hend
  silent r _ he _ := by cases he <;> rfl
  problem r _ _ _ := rfl
  load q completed hinside hno := by
    have hevents : ∀ inside, eventsOf (.began q :: (inside ++ [.ended q completed])) =
        eventsOf inside := by
      intro inside
      change eventsOf (inside ++ [.ended q completed]) = _
      rw [eventsOf_append]
      exact List.append_nil _
    rw [hevents]
    exact hinside (hno : NoDefinitionRefused _).append.1
  enroll := by
    intro importer q e enrolment s
    cases hc : (s.registry.calls (fun _ _ => false) enrolment.calls).refusal with
    | none =>
      rw [Context.enroll_accepted _ _ hc]
      refine ⟨_, rfl, fun _ => ?_⟩
      have hlistens : (l.context importer q).listening = true := hl
      rw [hlistens, eventsOf_append, eventsOf_registered]
      exact replayEvents_enrolled _ (Registry.callAll_accepted hc)
    | some refusal =>
      obtain ⟨remarks, ht⟩ := (l.context importer q).enroll_refused e hc
      rw [ht]
      exact ⟨_, rfl, .refused remarks hc⟩

/-- Registering a document, loading a resource, loading a location and loading several each leave a
registry that their events rebuild, however they end. -/
theorem events_rebuild (hh : l.documents.handlers = []) (hl : l.listening = true) (depth : Nat)
    (s : Session) :
    (∀ root r, s.Obeys Rebuilds (l.registerDocument (l.importer depth) root r s).2) ∧
      (∀ r, s.Obeys Rebuilds ((l.importer depth).loadResource r s).2) ∧
      (∀ location loaded,
        s.Obeys Rebuilds ((l.importer depth).loadLocation location loaded s).2) ∧
      ∀ locations, s.Obeys Rebuilds (l.loadEach depth locations s).2 := by
  have hlaw := rebuilds_law hl
  refine ⟨fun root r => ?_, fun r => ?_, fun location loaded => ?_, fun locations => ?_⟩
  · exact hlaw.registerDocument hh depth root r s
  · exact hlaw.loadResource hh depth r s
  · exact hlaw.loadLocation hh depth location loaded s
  · exact hlaw.loadEach hh depth locations s

end Loader

def pairBean : Element := ⟨"bean", none, [("id", "a"), ("class", "A")], [], some 1⟩

def pairAlias (name alt : String) : Element :=
  ⟨"alias", none, [("name", name), ("alias", alt)], [], some 1⟩

def pairRoot : Element :=
  ⟨"beans", none, [],
    [.element pairBean, .element (pairAlias "a" "b"), .element (pairAlias "b" "a")], some 1⟩

def pairLoader : Loader where
  workspace :=
    { tree := ⟨[], []⟩
      current := ["tmp", "vfs"]
      packageRoot := ["tmp", "packages"]
      packages := [] }
  parse := Xml.parse
  environment := .ofProperties []
  reporter := .collecting
  listening := true
  documents := {}

def pairRun : Except Failure Nat × Session :=
  pairLoader.registerDocument (pairLoader.importer 0) pairRoot (.bytes [] none) {}

theorem pairRun_rebuilds :
    pairLoader.documents.handlers = [] ∧ pairLoader.listening = true ∧
      (problemsOf .error pairRun.2.journal).map (·.fault) = [.aliasRefused "b" "a"] ∧
      (eventsOf pairRun.2.journal).length = 3 ∧ pairRun.2.registry.names = ["a"] ∧
      pairRun.2.registry.aliases = [("b", "a")] ∧
      Registry.replayEvents {} (eventsOf pairRun.2.journal) = .ok pairRun.2.registry := by
  obtain ⟨hfaults, hevents, hnames, haliases⟩ :
      (problemsOf .error pairRun.2.journal).map (·.fault) = [.aliasRefused "b" "a"] ∧
        (eventsOf pairRun.2.journal).length = 3 ∧ pairRun.2.registry.names = ["a"] ∧
        pairRun.2.registry.aliases = [("b", "a")] := by
    decide +kernel
  have hno : NoDefinitionRefused pairRun.2.journal := by
    intro p hp name hf
    have hm := List.mem_map_of_mem (f := fun p : Problem => p.fault) hp
    rw [hfaults, List.mem_singleton, hf] at hm
    cases hm
  refine ⟨rfl, rfl, hfaults, hevents, hnames, haliases, ?_⟩
  have hrebuild := (Loader.events_rebuild (l := pairLoader) rfl rfl 0 {}).1 pairRoot (.bytes [] none)
  obtain ⟨journal, hj, hr⟩ := hrebuild
  have hjournal : pairRun.2.journal = journal := by
    unfold Session.journal pairRun
    rw [hj, List.append_nil, List.reverse_reverse]
  rw [hjournal]
  exact hr (hjournal ▸ hno)

end BeanCatalog
