import BeanCatalog.Proofs.Loading.Replay
import BeanCatalog.Xml.Document

namespace BeanCatalog

inductive JournalEntry.Unwinding : JournalEntry → Prop
  | problem (p : Problem) : Unwinding (.problem .error p)
  | ended (r : Resource) (completed : Bool) : Unwinding (.ended r completed)

inductive Cut {β : Type} (reported : β → Prop) (s : Session) : β × Session → β × Session → Prop
  | unbroken {x : β × Session} (journal : List JournalEntry) (hx : s.Entered journal x.2)
      (hp : problemsOf .error journal = []) : Cut reported s x x
  | broken {x x' : β × Session} (before : List JournalEntry) (p : Problem)
      (after unwinding : List JournalEntry)
      (hx : s.Entered (before ++ .problem .error p :: after) x.2)
      (hp : problemsOf .error before = []) (hw : ∀ entry ∈ unwinding, entry.Unwinding)
      (hr : reported x'.1)
      (hx' : s.Entered (before ++ .problem .error p :: unwinding) x'.2) : Cut reported s x x'

def CutBy {β : Type} (reported : β → Prop) (act act' : StateM Session β) : Prop :=
  ∀ s, Cut reported s (act s) (act' s)

def Unwinds {β : Type} (reported : β → Prop) (act : StateM Session β) : Prop :=
  ∀ s, reported (act s).1 ∧ ∃ unwinding, (∀ entry ∈ unwinding, JournalEntry.Unwinding entry) ∧
    s.Entered unwinding (act s).2

def Raised {α : Type} (outcome : Except Failure α) : Prop := ∃ p, outcome = .error (.reported p)

section

variable {β γ : Type} {reported : β → Prop} {reported' : γ → Prop} {s : Session}

theorem CutBy.same {act : StateM Session β}
    (h : ∀ s : Session, ∃ journal, s.Entered journal (act s).2 ∧ problemsOf .error journal = []) :
    CutBy reported act act := by
  intro s
  obtain ⟨journal, hj, hp⟩ := h s
  exact .unbroken journal hj hp

theorem Cut.grows {x x' : β × Session} (h : Cut reported s x x') :
    ∃ journal, s.Entered journal x.2 := by
  cases h with
  | unbroken journal hx => exact ⟨journal, hx⟩
  | broken before p after _ hx => exact ⟨_, hx⟩

theorem Cut.after {t : Session} {first : List JournalEntry} {x x' : β × Session}
    (hs : s.Entered first t) (hp : problemsOf .error first = []) (h : Cut reported t x x') :
    Cut reported s x x' := by
  cases h with
  | unbroken rest hx hp' =>
    refine .unbroken (first ++ rest) (hs.trans hx) ?_
    rw [problemsOf_append, hp, hp']
    rfl
  | broken before p after unwinding hx hp' hw hr hx' =>
    have h := hs.trans hx
    have h' := hs.trans hx'
    rw [← List.append_assoc] at h h'
    refine .broken (first ++ before) p after unwinding h ?_ hw hr h'
    rw [problemsOf_append, hp, hp']
    rfl

theorem CutBy.bind {act act' : StateM Session β} {next next' : β → StateM Session γ}
    (ha : CutBy reported act act') (hn : ∀ b, CutBy reported' (next b) (next' b))
    (hu : ∀ b, reported b → Unwinds reported' (next' b)) :
    CutBy reported' (act >>= next) (act' >>= next') := by
  intro s
  change Cut reported' s (next (act s).1 (act s).2) (next' (act' s).1 (act' s).2)
  have h := ha s
  generalize act s = x at h ⊢
  generalize act' s = x' at h ⊢
  cases h with
  | unbroken first hx hp => exact (hn x.1 x.2).after hx hp
  | broken before p after unwinding hx hp hw hr hx' =>
    obtain ⟨rest, hy⟩ := (hn x.1 x.2).grows
    obtain ⟨hr', out, hout, hy'⟩ := hu x'.1 hr x'.2
    have h := hx.trans hy
    have h' := hx'.trans hy'
    rw [List.append_assoc, List.cons_append] at h h'
    refine .broken before p (after ++ rest) (unwinding ++ out) h hp ?_ hr' h'
    intro entry hm
    exact (List.mem_append.mp hm).elim (hw entry) (hout entry)

theorem CutBy.pure (b : β) : CutBy reported (pure b) (pure b) :=
  .same fun s => ⟨[], .refl s, rfl⟩

theorem CutBy.silent {act : StateM Session β} {entry : JournalEntry} (he : entry.Silent)
    (h : ∀ s : Session, s.Entered [entry] (act s).2) : CutBy reported act act :=
  .same fun s => ⟨[entry], h s, by cases he <;> rfl⟩

theorem Unwinds.pure {b : β} (hb : reported b) : Unwinds reported (pure b) :=
  fun s => ⟨hb, [], fun _ hm => absurd hm List.not_mem_nil, .refl s⟩

end

namespace Reading

def CutBy {α : Type} (act act' : Reading α) : Prop := BeanCatalog.CutBy Raised act.run act'.run

namespace CutBy

variable {α β : Type} {act act' : Reading α}

theorem pure (a : α) : CutBy (pure a) (pure a) := BeanCatalog.CutBy.pure _

theorem throw (f : Failure) : CutBy (throw f : Reading α) (throw f) := BeanCatalog.CutBy.pure _

theorem bind {next next' : α → Reading β} (ha : CutBy act act')
    (hn : ∀ a, CutBy (next a) (next' a)) : CutBy (act >>= next) (act' >>= next') := by
  change BeanCatalog.CutBy Raised (act.run >>= ExceptT.bindCont next)
    (act'.run >>= ExceptT.bindCont next')
  refine BeanCatalog.CutBy.bind ha (fun o => ?_) fun o ho => ?_
  · cases o with
    | error f => exact .pure _
    | ok a => exact hn a
  · obtain ⟨p, rfl⟩ := ho
    exact .pure ⟨p, rfl⟩

theorem lift {load load' : StateM Session LoadOutcome} {next next' : LoadOutcome → Reading α}
    (hl : BeanCatalog.CutBy (fun outcome => Raised outcome.1) load load')
    (hn : ∀ outcome, CutBy (next outcome) (next' outcome))
    (hu : ∀ p loaded, Unwinds Raised (next' (.error (.reported p), loaded)).run) :
    CutBy (liftM load >>= next) (liftM load' >>= next') := by
  refine BeanCatalog.CutBy.bind hl hn fun (o, loaded) ho => ?_
  obtain ⟨p, rfl⟩ := ho
  exact hu p loaded

theorem withFreshNames (ha : CutBy act act') :
    CutBy (withFreshNames act) (withFreshNames act') := by
  intro s
  have h : Cut Raised _ (act { s with usedNames := [] }) (act' { s with usedNames := [] }) := ha _
  change Cut Raised s (Reading.withFreshNames act s) (Reading.withFreshNames act' s)
  unfold Reading.withFreshNames
  generalize act { s with usedNames := [] } = x at h ⊢
  generalize act' { s with usedNames := [] } = x' at h ⊢
  cases h with
  | unbroken journal hx hp => exact .unbroken journal hx hp
  | broken before p after unwinding hx hp hw hr hx' =>
    exact .broken before p after unwinding hx hp hw hr hx'

theorem whileLoading (r : Resource) {act act' : Reading Nat} (ha : CutBy act act') :
    CutBy (whileLoading r act) (whileLoading r act') := by
  let start : StateM Session Unit := fun s =>
    ((), { s with loading := r :: s.loading, entries := .began r :: s.entries })
  let finish (o : Except Failure Nat) : StateM Session (Except Failure Nat) := fun s =>
    (o, { s with
      loading := s.loading.filter fun q => !Resource.same r q
      entries := .ended r o.toBool :: s.entries })
  have hstart : BeanCatalog.CutBy (fun _ => False) start start :=
    .same fun s => ⟨[.began r], rfl, rfl⟩
  have hfinish : ∀ o, BeanCatalog.CutBy Raised (finish o) (finish o) := fun o =>
    .same fun s => ⟨[.ended r o.toBool], rfl, rfl⟩
  have hunwinds : ∀ o, Raised o → Unwinds Raised (finish o) := by
    intro o ho s
    refine ⟨ho, [.ended r o.toBool], fun entry hm => ?_, rfl⟩
    rw [List.mem_singleton.mp hm]
    exact .ended r _
  exact BeanCatalog.CutBy.bind hstart (fun _ => BeanCatalog.CutBy.bind ha hfinish hunwinds)
    fun _ hf => hf.elim

theorem register (calls : List (RegistryCall Definition)) :
    CutBy (register calls) (register calls) := by
  refine .same fun s => ⟨registered s.registry calls, ?_, ?_⟩
  · change s.Entered _ (Reading.register calls s).2
    rw [register_apply]
    rfl
  · exact problemsOf_registered _ _ _

theorem take (severity : Severity) (p : Problem) :
    CutBy (Reporter.collecting.take severity p) (Reporter.failFast.take severity p) := by
  intro s
  cases severity with
  | warning => exact .unbroken [.problem .warning p, .remark (.problem .warning p.text)] rfl rfl
  | error =>
    refine .broken [] p [.remark (.problem .error p.text)] [] rfl rfl ?_ ⟨p, rfl⟩ rfl
    intro entry hm
    cases hm

end CutBy

end Reading

namespace Loader

variable (l : Loader)

def reporting (reporter : Reporter) : Loader := { l with reporter := reporter }

theorem steps_cutBy (importer importer' : Importer) (r : Resource) :
    StepRelation ((l.reporting .collecting).context importer r)
      ((l.reporting .failFast).context importer' r) fun _ => Reading.CutBy where
  alike := ⟨.failFast, some importer', rfl⟩
  done := .pure
  bind := .bind
  session hn _ _ := .bind (.same fun s => ⟨[], .refl s, rfl⟩) hn
  names _ := .same fun s => ⟨[], .refl s, rfl⟩
  remark r := .silent (.remark r) fun _ => rfl
  fresh := .withFreshNames
  enter he := .silent he fun _ => rfl
  report _ _ _ _ := .take _ _
  enroll e enrolment := by
    refine .bind (.register _) fun refusal => ?_
    cases refusal with
    | some refusal => exact .take _ _
    | none =>
      let event := enrolment.event (((l.reporting .collecting).context importer r).source e)
      have hfired : Reading.CutBy (Reading.enter (.event event)) (Reading.enter (.event event)) :=
        .same fun s => ⟨[.event event], rfl, rfl⟩
      exact ParseRelation.ite (T := fun _ => Reading.CutBy) l.listening hfired (.pure ())

theorem endImport_unwinds (importer : Importer) (r : Resource) (e : Element) (location : String)
    (p : Problem) (loaded : List Resource) :
    Unwinds Raised (((l.reporting .failFast).context importer r).endImport e location
      (.error (.reported p), loaded)).run := by
  have hc : (LocationKind.of location).contains (.reported p) = true := by
    cases LocationKind.of location <;> rfl
  intro s
  rw [Context.endImport_contained hc]
  refine ⟨⟨_, rfl⟩, [.problem .error _], fun entry hm => ?_, rfl⟩
  rw [List.mem_singleton.mp hm]
  exact .problem _

theorem relation_cutBy :
    LoadRelation (l.reporting .collecting) (l.reporting .failFast) (fun _ => Reading.CutBy)
      (CutBy fun outcome => Raised outcome.1) where
  alike := ⟨.failFast, rfl⟩
  steps := l.steps_cutBy
  fails := .throw
  loading := .whileLoading
  settled := .pure
  further loaded _ _ _ _ ha hn := by
    refine CutBy.bind ha (fun o => ?_) fun o ho => ?_
    · cases o with
      | error f => exact .pure _
      | ok n => exact hn n
    · obtain ⟨p, rfl⟩ := ho
      exact .pure ⟨p, rfl⟩
  concluded location _ _ ha := by
    refine CutBy.bind ha (fun (o, loaded) => ?_) fun (o, loaded) ho => ?_
    · cases o with
      | error f => exact .pure _
      | ok count => exact .silent (.remark (.loaded count location)) fun _ => rfl
    · obtain ⟨p, rfl⟩ := ho
      exact .pure ⟨p, rfl⟩
  imported importer importer' r e location _ _ ha :=
    .lift ha (fun outcome => (l.steps_cutBy importer importer' r).endImport e location outcome
      fun f _ => .throw f)
      (l.endImport_unwinds importer' r e location)
  before ha hrest := by
    refine .lift ha (fun (o, loaded) => ?_) fun p loaded => .pure ⟨p, rfl⟩
    cases o with
    | error f => exact .throw f
    | ok count => exact hrest

end Loader

theorem unwinding_silent {unwinding : List JournalEntry}
    (hw : ∀ entry ∈ unwinding, entry.Unwinding) :
    eventsOf unwinding = [] ∧ problemsOf .warning unwinding = [] ∧
      ∀ calls, .registering calls ∉ unwinding := by
  refine ⟨?_, ?_, fun calls hm => ?_⟩
  · apply List.filterMap_eq_nil_iff.mpr
    intro entry hm
    cases hw entry hm <;> rfl
  · apply List.filterMap_eq_nil_iff.mpr
    intro entry hm
    cases hw entry hm <;> rfl
  · cases hw _ hm

/-- A run that a reported error has ended when `before` had been entered. -/
structure EndedAfter (s : Session) (before : List JournalEntry)
    (run : Except Failure Unit × Session) : Prop where
  raised : Raised run.1
  registry : run.2.registry = replay s.registry before
  entered : ∃ journal, s.Entered journal run.2 ∧ eventsOf journal = eventsOf before ∧
    problemsOf .warning journal = problemsOf .warning before

/-- Without an error both runs are the same. Otherwise the run that fails fast ends where the
collecting run has reported its first error. -/
theorem Loader.failFast_cuts {l : Loader} (hh : l.documents.handlers = []) (depth : Nat)
    (locations : List String) (s : Session) :
    ∃ journal, s.Entered journal ((l.reporting .collecting).loadEach depth locations s).2 ∧
      ((l.reporting .collecting).loadEach depth locations s).2.registry =
        replay s.registry journal ∧
      (problemsOf .error journal = [] ∧
          (l.reporting .failFast).loadEach depth locations s =
            (l.reporting .collecting).loadEach depth locations s ∨
        ∃ before p after, journal = before ++ .problem .error p :: after ∧
          problemsOf .error before = [] ∧
          EndedAfter s before ((l.reporting .failFast).loadEach depth locations s)) := by
  have hcut : Cut Raised s ((l.reporting .collecting).loadEach depth locations s)
      ((l.reporting .failFast).loadEach depth locations s) :=
    l.relation_cutBy.loadEach hh depth locations s
  obtain ⟨told, htold, hwhole⟩ :=
    (l.reporting .collecting).replays_law.loadEach hh depth locations s
  obtain ⟨journal, hjournal, hregistry⟩ :=
    (l.reporting .failFast).replays_law.loadEach hh depth locations s
  refine ⟨told, htold, hwhole, ?_⟩
  generalize (l.reporting .collecting).loadEach depth locations s = whole at *
  generalize (l.reporting .failFast).loadEach depth locations s = cut at *
  cases hcut with
  | unbroken told' hx hp =>
    obtain rfl : told = told' := hx.unique htold
    exact .inl ⟨hp, rfl⟩
  | broken before p after unwinding hx hp hw hr hx' =>
    obtain rfl := hx.unique htold
    obtain rfl := hx'.unique hjournal
    obtain ⟨hevents, hwarnings, hstill⟩ := unwinding_silent hw
    refine .inr ⟨before, p, after, rfl, hp, hr, ?_, _, hx', ?_, ?_⟩
    · have hend : replay (replay s.registry before) unwinding = replay s.registry before :=
        replay_still hstill
      rw [hregistry, replay_append]
      exact hend
    · rw [eventsOf_append]
      change eventsOf before ++ eventsOf unwinding = _
      rw [hevents, List.append_nil]
    · rw [problemsOf_append]
      change problemsOf .warning before ++ problemsOf .warning unwinding = _
      rw [hwarnings, List.append_nil]

def nestedLoader : Loader where
  workspace :=
    { tree :=
        ⟨[(["tmp", "vfs", "a.xml"], Text.Utf8.encode
            "<beans><bean id=\"a\" class=\"A\"/><import resource=\"b.xml\"/><bean id=\"c\" class=\"C\"/></beans>"),
          (["tmp", "vfs", "b.xml"], Text.Utf8.encode
            "<beans><bean id=\"b\" class=\"B\"/><alias name=\"\" alias=\"b\"/></beans>")], []⟩
      current := ["tmp", "vfs"]
      packageRoot := ["tmp", "packages"]
      packages := [] }
  parse := Xml.parse
  environment := .ofProperties []
  reporter := .collecting
  listening := true
  documents := {}

theorem nestedLoader_failFast :
    nestedLoader.documents.handlers = [] ∧
      ((nestedLoader.reporting .collecting).loadEach 2 ["a.xml"] {}).2.registry.names =
        ["a", "b", "c"] ∧
      Raised ((nestedLoader.reporting .failFast).loadEach 2 ["a.xml"] {}).1 ∧
      ((nestedLoader.reporting .failFast).loadEach 2 ["a.xml"] {}).2.registry.names =
        ["a", "b"] := by
  obtain ⟨hcollected, herrors, hcut⟩ :
      ((nestedLoader.reporting .collecting).loadEach 2 ["a.xml"] {}).2.registry.names =
          ["a", "b", "c"] ∧
        (problemsOf .error
          ((nestedLoader.reporting .collecting).loadEach 2 ["a.xml"] {}).2.journal).length = 1 ∧
        ((nestedLoader.reporting .failFast).loadEach 2 ["a.xml"] {}).2.registry.names =
          ["a", "b"] := by
    decide +kernel
  refine ⟨rfl, hcollected, ?_, hcut⟩
  obtain ⟨journal, hj, -, ⟨hnone, -⟩ | ⟨before, p, after, -, -, hended⟩⟩ :=
    Loader.failFast_cuts (l := nestedLoader) rfl 2 ["a.xml"] {}
  · rw [Session.journal, hj, List.append_nil, List.reverse_reverse, hnone] at herrors
    cases herrors
  · exact hended.raised

end BeanCatalog
