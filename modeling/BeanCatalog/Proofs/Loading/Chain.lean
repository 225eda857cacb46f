import BeanCatalog.Proofs.Loading.ImportEvents
import BeanCatalog.Proofs.Loading.Trace
import BeanCatalog.Xml.Document

/-!
The resources under loading. They are the loads that a load lies in, at every moment of every run, so
a load is refused as cyclic just when it lies in a load of the same resource.
-/

namespace BeanCatalog

/-- The resources whose loads lie around a place, the innermost first. None of them lies in a load of
itself. -/
structure ImportChain where
  resources : List Resource
  distinct : resources.Pairwise fun inner outer => inner.same outer = false

namespace ImportChain

def outermost : ImportChain := ⟨[], .nil⟩

def holds (c : ImportChain) (r : Resource) : Bool := c.resources.any r.same

def extend (c : ImportChain) (r : Resource) (h : c.holds r = false) : ImportChain where
  resources := r :: c.resources
  distinct := by
    refine .cons (fun q hq => ?_) c.distinct
    rw [holds, List.any_eq_false] at h
    simpa using h q hq

end ImportChain

/-- The resources kept as under loading are those given, and so are those that the journal tells to
have begun and not ended. -/
def Session.Inside (s : Session) (loading : List Resource) : Prop :=
  s.loading = loading ∧ stillLoading [] s.journal = loading

instance (s : Session) (loading : List Resource) : Decidable (s.Inside loading) :=
  inferInstanceAs (Decidable (_ ∧ _))

def SameInside (loading : List Resource) {β : Type} (act act' : StateM Session β) : Prop :=
  ∀ s : Session, s.Inside loading → act' s = act s ∧ (act s).2.Inside loading ∧
    s.entries <:+ (act s).2.entries

namespace Reading

/-- A step that begins and ends inside the given loads. Where it does not, the alarm is raised. -/
def watched (loading : List Resource) (alarm act : Reading Nat) : Reading Nat := fun s =>
  if s.Inside loading then
    let (outcome, t) := act s
    if t.Inside loading then (outcome, t) else alarm t
  else alarm s

def whileInside (r : Resource) (around : List Resource) (act : Reading Nat) : Reading Nat := fun s =>
  let (outcome, t) := act { s with loading := r :: around, entries := .began r :: s.entries }
  (outcome, { t with loading := around, entries := .ended r outcome.toBool :: t.entries })

end Reading

def loadsInOrder (load : Resource → Reading Nat) (count : Nat) (loaded : List Resource) :
    List Resource → StateM Session LoadOutcome
  | [] => pure (.ok count, loaded)
  | r :: rest => loadThen (load r) loaded fun n =>
      loadsInOrder load (count + n) (if loaded.any (Resource.same r) then loaded else loaded ++ [r]) rest

namespace Loader

variable (l : Loader) (alarm : Reading Nat)

/-- A load that knows the loads around it, refuses what one of them loads, and hands the loads inside
it the chain that is longer by itself. Of the resources kept as under loading it asks nothing. -/
def loadWithin (inside : ImportChain → Importer) (c : ImportChain) (r : Resource) : Reading Nat :=
  .watched c.resources alarm <|
    if h : c.holds r = false then
      match r.present l.workspace with
      | .error f => throw f
      | .ok false => throw (.absent r.description)
      | .ok true => do
        Reading.remark (.loading r.description)
        Reading.whileInside r c.resources
          (.watched (r :: c.resources) alarm (l.readResource (inside (c.extend r h)) r))
    else throw (.cyclic r.description)

def importerWithin : (depth : Nat) → ImportChain → Importer
  | 0, _ => .exhausted
  | depth + 1, c =>
    { loadLocation := fun location loaded =>
        match Location.resources l.workspace location with
        | .error f => pure (.error f, loaded)
        | .ok rs => concludeLoads location
            (loadsInOrder (l.loadWithin alarm (importerWithin depth) c) 0 loaded rs)
      loadResource := l.loadWithin alarm (importerWithin depth) c }

end Loader

namespace Session.Inside

variable {s t : Session} {loading : List Resource}

theorem enter (h : s.Inside loading) {journal : List JournalEntry} (hl : t.loading = s.loading)
    (he : s.Entered journal t) (hj : ∀ e ∈ journal, e.marksLoad = false) : t.Inside loading := by
  refine ⟨hl.trans h.1, ?_⟩
  have hjournal : t.journal = s.journal ++ journal := by
    rw [Session.journal, he, List.reverse_append, List.reverse_reverse, Session.journal]
  rw [hjournal, stillLoading_append, h.2]
  exact (Level.plain hj).stillLoading loading

theorem begin (h : s.Inside loading) (r : Resource) : (s.beginning r).Inside (r :: loading) := by
  refine ⟨congrArg _ h.1, ?_⟩
  have hjournal : (s.beginning r).journal = s.journal ++ [.began r] := List.reverse_cons
  rw [hjournal, stillLoading_append, h.2]
  rfl

theorem finish {r : Resource} (h : t.Inside (r :: loading)) (completed : Bool) :
    ({ t with loading := loading, entries := .ended r completed :: t.entries } : Session).Inside
      loading := by
  refine ⟨rfl, ?_⟩
  have hjournal : ({ t with loading := loading, entries := .ended r completed :: t.entries } :
      Session).journal = t.journal ++ [.ended r completed] := List.reverse_cons
  rw [hjournal, stillLoading_append, h.2]
  rfl

end Session.Inside

namespace SameInside

variable {β γ : Type} {loading : List Resource}

theorem pure (b : β) : SameInside loading (pure b) (pure b) := fun _ hs =>
  ⟨rfl, hs, List.suffix_rfl⟩

theorem bind {act act' : StateM Session β} {next next' : β → StateM Session γ}
    (ha : SameInside loading act act') (hn : ∀ b, SameInside loading (next b) (next' b)) :
    SameInside loading (act >>= next) (act' >>= next') := by
  intro s hs
  obtain ⟨hsame, hinside, hentries⟩ := ha s hs
  obtain ⟨hsame', hinside', hentries'⟩ := hn (act s).1 (act s).2 hinside
  refine ⟨?_, hinside', hentries.trans hentries'⟩
  change next' (act' s).1 (act' s).2 = _
  rw [hsame]
  exact hsame'

theorem of_enters {act : StateM Session β} (h : ∀ s, (act s).2.loading = s.loading ∧
    ∃ journal, s.Entered journal (act s).2 ∧ ∀ e ∈ journal, e.marksLoad = false) :
    SameInside loading act act := by
  intro s hs
  obtain ⟨hl, journal, he, hj⟩ := h s
  exact ⟨rfl, hs.enter hl he hj, journal.reverse, he.symm⟩

end SameInside

namespace Reading

def SameInside (loading : List Resource) {α : Type} (act act' : Reading α) : Prop :=
  BeanCatalog.SameInside loading act.run act'.run

namespace SameInside

variable {α β : Type} {loading : List Resource}

theorem bind {act act' : Reading α} {next next' : α → Reading β} (ha : SameInside loading act act')
    (hn : ∀ a, SameInside loading (next a) (next' a)) :
    SameInside loading (act >>= next) (act' >>= next') := by
  change BeanCatalog.SameInside loading (act.run >>= ExceptT.bindCont next)
    (act'.run >>= ExceptT.bindCont next')
  refine BeanCatalog.SameInside.bind ha fun o => ?_
  cases o with
  | error f => exact .pure _
  | ok a => exact hn a

theorem enter {e : JournalEntry} (he : e.marksLoad = false) :
    SameInside loading (enter e) (enter e) :=
  .of_enters fun _ => ⟨rfl, [e], rfl, fun _ hm => List.mem_singleton.mp hm ▸ he⟩

theorem take (reporter : Reporter) (severity : Severity) (p : Problem) :
    SameInside loading (reporter.take severity p) (reporter.take severity p) := by
  refine .bind (enter rfl) fun _ => ?_
  cases reporter <;> cases severity <;>
    first | exact enter rfl | exact BeanCatalog.SameInside.pure _

theorem register (calls : List (RegistryCall Definition)) :
    SameInside loading (register calls) (register calls) := by
  refine .of_enters fun s => ?_
  have happly := register_apply calls s
  rw [show (Reading.register calls).run s = _ from happly]
  exact ⟨rfl, registered s.registry calls, rfl, registered_plain _ _⟩

end SameInside

end Reading

abbrev Importer.SameInside (loading : List Resource) (importer importer' : Importer) : Prop :=
  Importer.Related (Reading.SameInside loading) (BeanCatalog.SameInside loading) importer importer'

/-- A handler that has no hold on the resources under loading but through the importer it is given. -/
structure Handler.Loyal (handler : Handler) : Prop where
  parse {loading : List Resource} {importer importer' : Importer}
      (hi : importer.SameInside loading importer') (ctx : Context) (defaults : Defaults) (e : Element) :
    Reading.SameInside loading (handler.parse ⟨ctx.via (some importer), defaults⟩ e)
      (handler.parse ⟨ctx.via (some importer'), defaults⟩ e)
  decorate {loading : List Resource} {importer importer' : Importer}
      (hi : importer.SameInside loading importer') (ctx : Context) (defaults : Defaults) (e : Element)
      (holder : Holder) (name : Option String) :
    Reading.SameInside loading
      (handler.decorate ⟨ctx.via (some importer), defaults⟩ e holder name)
      (handler.decorate ⟨ctx.via (some importer'), defaults⟩ e holder name)

namespace Loader

variable {l : Loader} {loading : List Resource}

theorem steps_inside (importer importer' : Importer) (r : Resource) :
    StepRelation (l.context importer r) (l.context importer' r) fun _ act act' =>
      Reading.SameInside loading act act' where
  alike := ⟨l.reporter, some importer', rfl⟩
  done a := SameInside.pure _
  bind := .bind
  session hn _ _ := fun s hs => hn s s hs
  names names := .of_enters fun s => ⟨rfl, [], rfl, fun _ hm => absurd hm List.not_mem_nil⟩
  remark r := .enter rfl
  fresh {act act'} ha := by
    intro s hs
    obtain ⟨hsame, hinside, hentries⟩ := ha { s with usedNames := [] } hs
    refine ⟨?_, hinside, hentries⟩
    change Reading.withFreshNames act' s = Reading.withFreshNames act s
    unfold Reading.withFreshNames
    rw [show act' { s with usedNames := [] } = act { s with usedNames := [] } from hsame]
  enter he := .enter (by cases he <;> rfl)
  report _ _ _ _ := .take _ _ _
  enroll e enrolment := by
    refine .bind (.register _) fun refusal => ?_
    cases refusal with
    | some refusal => exact .take _ _ _
    | none =>
      let event := enrolment.event ((l.context importer r).source e)
      change Reading.SameInside loading
        (if l.listening then Reading.enter (.event event) else pure ())
        (if l.listening then Reading.enter (.event event) else pure ())
      exact ParseRelation.ite l.listening (.enter rfl) (SameInside.pure _)

theorem further_inside (loaded : List Resource) {act act' : Reading Nat}
    {next next' : Nat → StateM Session LoadOutcome} (ha : Reading.SameInside loading act act')
    (hn : ∀ n, SameInside loading (next n) (next' n)) :
    SameInside loading (loadThen act loaded next) (loadThen act' loaded next') := by
  refine SameInside.bind ha fun o => ?_
  cases o with
  | error f => exact .pure _
  | ok n => exact hn n

theorem concluded_inside (location : String) {act act' : StateM Session LoadOutcome}
    (ha : SameInside loading act act') :
    SameInside loading (concludeLoads location act) (concludeLoads location act') := by
  refine SameInside.bind ha fun (o, loaded) => ?_
  cases o with
  | error f => exact .pure _
  | ok count => exact .bind (Reading.SameInside.enter rfl) fun _ => .pure _

theorem reads_inside
    (hh : ∀ uri handler, l.documents.handlers.get? uri = some handler → handler.Loyal) :
    ReadRelation l l (fun _ act act' => Reading.SameInside loading act act')
      (Reading.SameInside loading) (SameInside loading) where
  alike := ⟨l.reporter, rfl⟩
  steps := steps_inside
  handlers {importer _} hi r :=
    { parse := fun h defaults e => (hh _ _ h).parse hi (l.context importer r) defaults e
      decorate := fun h defaults e holder name =>
        (hh _ _ h).decorate hi (l.context importer r) defaults e holder name }
  fails _ _ _ := SameInside.pure _
  settled _ _ := .pure _
  further := further_inside
  imported importer importer' r e location _ _ ha :=
    SameInside.bind ha fun outcome => (steps_inside importer importer' r).endImport e location outcome
      fun f _ => SameInside.pure (Except.error f)

theorem watched_inside {alarm act act' : Reading Nat} (ha : Reading.SameInside loading act act') :
    Reading.SameInside loading act (Reading.watched loading alarm act') := by
  intro s hs
  obtain ⟨hsame, hinside, hentries⟩ := ha s hs
  refine ⟨?_, hinside, hentries⟩
  have hact : act' s = ((act s).1, (act s).2) := hsame
  change Reading.watched loading alarm act' s = ((act s).1, (act s).2)
  unfold Reading.watched
  rw [if_pos hs, hact]
  exact if_pos hinside

theorem whileLoading_inside {r : Resource} (hr : r ≠ .unknown)
    (hl : loading.any r.same = false) {act act' : Reading Nat}
    (ha : Reading.SameInside (r :: loading) act act') :
    Reading.SameInside loading (Reading.whileLoading r act) (Reading.whileInside r loading act') := by
  intro s hs
  obtain ⟨hsame, hinside, hentries⟩ := ha (s.beginning r) (hs.begin r)
  rcases hact : act (s.beginning r) with ⟨o, t⟩
  have hact' : act' (s.beginning r) = (o, t) := hact ▸ hsame
  rw [show act.run (s.beginning r) = _ from hact] at hinside hentries
  have hrestored : (t.loading.filter fun q => !Resource.same r q) = loading := by
    rw [hinside.1]
    exact filter_same hr hl
  have hload : (Reading.whileLoading r act).run s = (o, { t with
      loading := loading
      entries := .ended r o.toBool :: t.entries }) := by
    refine (whileLoading_apply hact).trans ?_
    rw [hrestored]
  rw [hload]
  refine ⟨?_, hinside.finish _, ?_⟩
  · change Reading.whileInside r loading act' s = _
    unfold Reading.whileInside
    have hbegin : ({ s with loading := r :: loading, entries := .began r :: s.entries } : Session) =
        s.beginning r := by rw [Session.beginning, hs.1]
    rw [hbegin, hact']
  · exact (List.suffix_cons _ _).trans (hentries.trans (List.suffix_cons _ _))

section

variable (hh : ∀ uri handler, l.documents.handlers.get? uri = some handler → handler.Loyal)
include hh

theorem whileLoading_extends {alarm : Reading Nat} {importer : Importer}
    {inside : ImportChain → Importer} {c : ImportChain} {r : Resource} (h : c.holds r = false)
    (hp : r.present l.workspace = .ok true)
    (hi : ∀ c, importer.SameInside c.resources (inside c)) :
    Reading.SameInside c.resources (Reading.whileLoading r (l.readResource importer r))
      (Reading.whileInside r c.resources
        (.watched (r :: c.resources) alarm (l.readResource (inside (c.extend r h)) r))) := by
  have hr : r ≠ .unknown := by
    rintro rfl
    cases hp
  apply whileLoading_inside hr h
  exact watched_inside ((reads_inside hh).readResource (hi (c.extend r h)) r)

theorem loadResource_inside {alarm : Reading Nat} {importer : Importer}
    {inside : ImportChain → Importer} (c : ImportChain) (r : Resource)
    (hi : ∀ c, importer.SameInside c.resources (inside c)) :
    Reading.SameInside c.resources (l.loadResource importer r) (l.loadWithin alarm inside c r) := by
  refine watched_inside fun s hs => ?_
  have happly : (l.loadResource importer r).run s = _ := loadResource_apply importer r s
  rw [show s.loading.any r.same = c.holds r by rw [hs.1, ImportChain.holds]] at happly
  rw [happly]
  split
  next h =>
    rw [h, if_neg (by decide)]
    cases hp : r.present l.workspace with
    | error f => exact ⟨rfl, hs, List.suffix_rfl⟩
    | ok there =>
      cases there with
      | false => exact ⟨rfl, hs, List.suffix_rfl⟩
      | true =>
        have hremark : Reading.SameInside c.resources (Reading.remark (.loading r.description))
            (Reading.remark (.loading r.description)) := .enter rfl
        exact hremark.bind (fun _ => whileLoading_extends hh h hp hi) s hs
  next h =>
    rw [Bool.not_eq_false] at h
    rw [h, if_pos rfl]
    exact ⟨rfl, hs, List.suffix_rfl⟩

omit hh in
theorem loadAll_inside {importer : Importer} {load : Resource → Reading Nat}
    (hl : ∀ r, Reading.SameInside loading (l.loadResource importer r) (load r))
    (rs : List Resource) (count : Nat) (loaded : List Resource) :
    SameInside loading (l.loadAll importer count loaded rs) (loadsInOrder load count loaded rs) := by
  induction rs generalizing count loaded with
  | nil => exact .pure _
  | cons r rs ih => exact further_inside loaded (hl r) fun n => ih _ _

theorem importer_inside (alarm : Reading Nat) (depth : Nat) (c : ImportChain) :
    (l.importer depth).SameInside c.resources (l.importerWithin alarm depth c) := by
  induction depth generalizing c with
  | zero => exact ⟨fun _ _ => .pure _, fun _ => SameInside.pure _⟩
  | succ depth ih =>
    have hload (r : Resource) : Reading.SameInside c.resources (l.loadResource (l.importer depth) r)
        (l.loadWithin alarm (l.importerWithin alarm depth) c r) := loadResource_inside hh c r ih
    refine ⟨fun location loaded => ?_, hload⟩
    change SameInside c.resources (l.loadLocation (l.importer depth) location loaded)
      (match Location.resources l.workspace location with
        | .error f => pure (.error f, loaded)
        | .ok rs => concludeLoads location
            (loadsInOrder (l.loadWithin alarm (l.importerWithin alarm depth) c) 0 loaded rs))
    unfold loadLocation
    cases Location.resources l.workspace location with
    | error f => exact .pure _
    | ok rs => exact concluded_inside location (loadAll_inside hload rs 0 loaded)

end

end Loader

def Reading.Uncyclic {α : Type} (act : Reading α) : Prop :=
  ∀ (s : Session) (d : String), (act s).1 ≠ .error (.cyclic d)

namespace Reading.Uncyclic

variable {α β : Type}

theorem pure (a : α) : Uncyclic (pure a) := nofun

theorem throw {f : Failure} (hf : ∀ d, f ≠ .cyclic d) : Uncyclic (throw f : Reading α) := fun _ d h =>
  hf d (Except.error.inj h)

theorem bind {act : Reading α} {next : α → Reading β} (ha : Uncyclic act)
    (hn : ∀ a, Uncyclic (next a)) : Uncyclic (act >>= next) := by
  intro s d
  rcases h : act s with ⟨f | a, t⟩
  · rw [bind_error next h]
    intro hf
    apply ha s d
    rw [h]
    exact congrArg Except.error (Except.error.inj hf)
  · rw [bind_ok next h]
    exact hn a t d

theorem enter (e : JournalEntry) : Uncyclic (enter e) := nofun

theorem take (reporter : Reporter) (severity : Severity) (p : Problem) :
    Uncyclic (reporter.take severity p) := by
  refine .bind (enter _) fun _ => ?_
  cases reporter <;> cases severity <;> first | exact enter _ | exact throw nofun

end Reading.Uncyclic

namespace Loader

variable {l : Loader}

theorem steps_uncyclic (importer importer' : Importer) (r : Resource) :
    StepRelation (l.context importer r) (l.context importer' r) fun _ act _ => act.Uncyclic where
  alike := ⟨l.reporter, some importer', rfl⟩
  done := .pure
  bind := .bind
  session hn _ _ := fun s => hn s s
  names _ := nofun
  remark r := .enter (.remark r)
  fresh ha := fun s => ha { s with usedNames := [] }
  enter _ := .enter _
  report _ _ _ _ := .take _ _ _
  enroll e enrolment := by
    have hregister : (Reading.register enrolment.calls).Uncyclic := by
      intro s d
      rw [Reading.register_apply]
      exact nofun
    refine .bind hregister fun refusal => ?_
    cases refusal with
    | some refusal => exact .take _ _ _
    | none =>
      let event := enrolment.event ((l.context importer r).source e)
      change (if l.listening then Reading.enter (.event event) else pure ()).Uncyclic
      cases l.listening with
      | true => exact .enter _
      | false => exact .pure ()

theorem reads_uncyclic (hh : l.documents.handlers = []) :
    ReadRelation l l (fun _ act _ => act.Uncyclic) (fun _ _ => True) fun _ _ => True where
  alike := ⟨l.reporter, rfl⟩
  steps := steps_uncyclic
  handlers _ _ := .of_nil hh
  fails _ _ hc := .throw hc
  settled _ _ := trivial
  further _ _ _ _ _ _ _ := trivial
  imported importer importer' r e location act _ _ := by
    have hend (outcome : LoadOutcome) :
        ((l.context importer r).endImport e location outcome).Uncyclic := by
      refine (steps_uncyclic importer importer' r).endImport e location outcome fun f hf => ?_
      refine .throw fun d hd => ?_
      subst hd
      cases LocationKind.of location <;> cases hf
    intro s
    exact hend (act s).1 (act s).2

theorem readResource_uncyclic (hh : l.documents.handlers = []) (importer : Importer) (r : Resource) :
    (l.readResource importer r).Uncyclic := by
  have hi : Importer.Related (fun _ _ => True) (fun _ _ => True) importer importer :=
    ⟨fun _ _ => trivial, fun _ => trivial⟩
  exact (reads_uncyclic hh).readResource hi r

structure FollowsChain (l : Loader) (alarm : Reading Nat) (depth : Nat) (c : ImportChain)
    (s : Session) : Prop where
  resource (r : Resource) :
    (l.importer depth).loadResource r s = (l.importerWithin alarm depth c).loadResource r s ∧
      ((l.importer depth).loadResource r s).2.Inside c.resources
  location (location : String) (loaded : List Resource) :
    (l.importer depth).loadLocation location loaded s =
        (l.importerWithin alarm depth c).loadLocation location loaded s ∧
      ((l.importer depth).loadLocation location loaded s).2.Inside c.resources
  document (root : Element) (r : Resource) :
    l.registerDocument (l.importer depth) root r s =
        l.registerDocument (l.importerWithin alarm depth c) root r s ∧
      (l.registerDocument (l.importer depth) root r s).2.Inside c.resources
  /-- A load is turned away as cyclic, with nothing done, just when one around it loads the same. -/
  refused (r : Resource) :
    (l.importer depth).loadResource r s = (.error (.cyclic r.description), s) ↔
      0 < depth ∧ c.holds r = true
  /-- Without handlers no failure of an inner load leaves a load, so no other load fails like that. -/
  cyclic (hn : l.documents.handlers = []) (r : Resource) (d : String) :
    ((l.importer depth).loadResource r s).1 = .error (.cyclic d) ↔
      0 < depth ∧ c.holds r = true ∧ d = r.description

inductive ReaderUse where
  | location (location : String) (loaded : List Resource)
  | resource (r : Resource)
  | document (root : Element) (r : Resource)

def afterUse (l : Loader) (importer : Importer) (s : Session) : ReaderUse → Session
  | .location location loaded => (importer.loadLocation location loaded s).2
  | .resource r => (importer.loadResource r s).2
  | .document root r => (l.registerDocument importer root r s).2

/-- What a reader is left with after some uses, however each of them ended. -/
def afterUses (l : Loader) (importer : Importer) (s : Session) (uses : List ReaderUse) : Session :=
  uses.foldl (l.afterUse importer) s

section

variable {depth : Nat} {c : ImportChain} {s : Session} {r : Resource}

theorem loadResource_held {importer : Importer} (hs : s.Inside c.resources) (h : c.holds r = true) :
    l.loadResource importer r s = (.error (.cyclic r.description), s) := by
  rw [loadResource_apply]
  apply if_pos
  rw [hs.1]
  exact h

theorem loadResource_free {importer : Importer} (hs : s.Inside c.resources) (h : c.holds r = false) :
    l.loadResource importer r s =
      match r.present l.workspace with
      | .error f => (.error f, s)
      | .ok false => (.error (.absent r.description), s)
      | .ok true =>
        Reading.whileLoading r (l.readResource importer r)
          { s with entries := .remark (.loading r.description) :: s.entries } := by
  rw [loadResource_apply]
  apply if_neg
  rw [hs.1, Bool.not_eq_true]
  exact h

variable (hh : ∀ uri handler, l.documents.handlers.get? uri = some handler → handler.Loyal)

include hh in
theorem importer_refused_iff (hs : s.Inside c.resources) :
    (l.importer depth).loadResource r s = (.error (.cyclic r.description), s) ↔
      0 < depth ∧ c.holds r = true := by
  cases depth with
  | zero =>
    constructor
    · rintro ⟨⟩
    · exact fun h => absurd h.1 (Nat.lt_irrefl 0)
  | succ depth =>
    refine ⟨fun hrefused => ⟨Nat.succ_pos depth, ?_⟩, fun h => loadResource_held hs h.2⟩
    by_contra h
    rw [Bool.not_eq_true] at h
    have hfree := (loadResource_free (l := l) hs h).symm.trans hrefused
    cases hp : r.present l.workspace with
    | error f =>
      rw [hp] at hfree
      rcases present_error hp with rfl | ⟨rfl, -⟩ <;> cases hfree
    | ok there =>
      rw [hp] at hfree
      cases there with
      | false => cases hfree
      | true =>
        -- A load that begins leaves the remark on that in the journal.
        let begun : Session := { s with entries := .remark (.loading r.description) :: s.entries }
        have hbegun : begun.Inside c.resources :=
          hs.enter rfl (.one rfl) (by simp [JournalEntry.marksLoad])
        have hload : Reading.SameInside c.resources
            (Reading.whileLoading r (l.readResource (l.importer depth) r))
            (Reading.whileInside r c.resources (.watched (r :: c.resources) (throw .exhausted)
              (l.readResource (l.importerWithin (throw .exhausted) depth (c.extend r h)) r))) :=
          whileLoading_extends hh h hp (importer_inside hh (throw .exhausted) depth)
        obtain ⟨-, -, hentries⟩ := hload begun hbegun
        have hlength := hentries.length_le
        rw [show (Reading.whileLoading r _).run begun = _ from hfree] at hlength
        exact absurd hlength (Nat.not_succ_le_self _)

theorem importer_cyclic_iff (hn : l.documents.handlers = []) (hs : s.Inside c.resources) (d : String) :
    ((l.importer depth).loadResource r s).1 = .error (.cyclic d) ↔
      0 < depth ∧ c.holds r = true ∧ d = r.description := by
  cases depth with
  | zero =>
    constructor
    · rintro ⟨⟩
    · exact fun h => absurd h.1 (Nat.lt_irrefl 0)
  | succ depth =>
    change (l.loadResource (l.importer depth) r s).1 = _ ↔ _
    cases h : c.holds r with
    | true =>
      rw [loadResource_held hs h]
      constructor
      · rintro ⟨⟩
        exact ⟨Nat.succ_pos depth, rfl, rfl⟩
      · rintro ⟨-, -, rfl⟩
        rfl
    | false =>
      refine ⟨fun hcyclic => ?_, fun h => by cases h.2.1⟩
      rw [loadResource_free hs h] at hcyclic
      cases hp : r.present l.workspace with
      | error f =>
        rw [hp] at hcyclic
        rcases present_error hp with rfl | ⟨rfl, -⟩ <;> cases hcyclic
      | ok there =>
        rw [hp] at hcyclic
        cases there with
        | false => cases hcyclic
        | true => exact absurd hcyclic (readResource_uncyclic hn _ r _ d)

include hh

theorem importer_follows_chain (alarm : Reading Nat) (depth : Nat) (hs : s.Inside c.resources) :
    l.FollowsChain alarm depth c s := by
  have hi := importer_inside hh alarm depth c
  constructor
  · intro r
    obtain ⟨hsame, hinside, -⟩ := hi.resource r s hs
    exact ⟨hsame.symm, hinside⟩
  · intro location loaded
    obtain ⟨hsame, hinside, -⟩ := hi.location location loaded s hs
    exact ⟨hsame.symm, hinside⟩
  · intro root r
    obtain ⟨hsame, hinside, -⟩ := (reads_inside hh).registerDocument hi root r s hs
    exact ⟨hsame.symm, hinside⟩
  · exact fun r => importer_refused_iff hh hs
  · exact fun hn r d => importer_cyclic_iff hn hs d

theorem afterUses_inside (alarm : Reading Nat) (depth : Nat) (uses : List ReaderUse)
    (hs : s.Inside []) :
    l.afterUses (l.importer depth) s uses =
        l.afterUses (l.importerWithin alarm depth .outermost) s uses ∧
      (l.afterUses (l.importer depth) s uses).Inside [] := by
  induction uses generalizing s with
  | nil => exact ⟨rfl, hs⟩
  | cons u uses ih =>
    have hfollows := importer_follows_chain hh (c := .outermost) alarm depth hs
    obtain ⟨hsame, hinside⟩ : l.afterUse (l.importer depth) s u =
          l.afterUse (l.importerWithin alarm depth .outermost) s u ∧
        (l.afterUse (l.importer depth) s u).Inside [] := by
      cases u with
      | location location loaded =>
        obtain ⟨hsame, hinside⟩ := hfollows.location location loaded
        exact ⟨congrArg Prod.snd hsame, hinside⟩
      | resource r =>
        obtain ⟨hsame, hinside⟩ := hfollows.resource r
        exact ⟨congrArg Prod.snd hsame, hinside⟩
      | document root r =>
        obtain ⟨hsame, hinside⟩ := hfollows.document root r
        exact ⟨congrArg Prod.snd hsame, hinside⟩
    change l.afterUses _ (l.afterUse _ s u) uses = l.afterUses _ (l.afterUse _ s u) uses ∧
      (l.afterUses _ (l.afterUse _ s u) uses).Inside []
    rw [← hsame]
    exact ih hinside

/-- The resources under loading are the chain of the loads around a place, whatever the alarm. So they
are as before once a load has ended, and no load is refused for one that came before it. -/
theorem loading_is_chain (depth : Nat) (alarm : Reading Nat) :
    (∀ uses, let s := l.afterUses (l.importer depth) {} uses
      s = l.afterUses (l.importerWithin alarm depth .outermost) {} uses ∧ s.Inside [] ∧
        ∀ r, (l.importer depth).loadResource r s ≠ (.error (.cyclic r.description), s)) ∧
      ∀ (c : ImportChain) (s : Session), s.Inside c.resources → l.FollowsChain alarm depth c s := by
  refine ⟨fun uses => ?_, fun c s hs => importer_follows_chain hh alarm depth hs⟩
  obtain ⟨hsame, hinside⟩ := afterUses_inside hh (s := {}) alarm depth uses ⟨rfl, rfl⟩
  refine ⟨hsame, hinside, fun r hrefused => ?_⟩
  have hheld := (importer_refused_iff (c := .outermost) hh hinside).mp hrefused
  cases hheld.2

end

end Loader

def Handler.including : Handler where
  parse scope e := do
    scope.context.importElement e
    pure none
  decorate _ _ holder _ := pure holder

theorem Handler.including_loyal : Handler.including.Loyal where
  parse {loading _ _} hi ctx defaults e := by
    let l : Loader := ⟨ctx.workspace, Xml.parse, ctx.environment, ctx.reporter, ctx.listening, {}⟩
    have hnone : ∀ uri handler, l.documents.handlers.get? uri = some handler → handler.Loyal := nofun
    have himport : Reading.SameInside loading _ _ :=
      (Loader.reads_inside hnone).importElement hi ctx.resource e
    exact himport.bind fun _ => SameInside.pure _
  decorate _ _ _ _ _ _ := SameInside.pure _

def crossLoader : Loader where
  workspace :=
    { tree :=
        ⟨[(["tmp", "vfs", "a.xml"], Text.Utf8.encode
            "<beans xmlns:x=\"urn:x\"><x:a resource=\"b.xml\"/><import resource=\"b.xml\"/></beans>"),
          (["tmp", "vfs", "b.xml"], Text.Utf8.encode "<beans><import resource=\"a.xml\"/></beans>")],
          []⟩
      current := ["tmp", "vfs"]
      packageRoot := ["tmp", "packages"]
      packages := [] }
  parse := Xml.parse
  environment := .ofProperties []
  reporter := .collecting
  listening := true
  documents := { handlers := [("urn:x", .including)] }

def crossFile (name : String) : Resource := .ofFile crossLoader.workspace name

def crossUses : List Loader.ReaderUse := [.resource (crossFile "a.xml"), .resource (crossFile "a.xml")]

def crossSession : Session := crossLoader.afterUses (crossLoader.importer 3) {} crossUses

theorem crossLoader_follows_chain :
    (∀ uri handler, crossLoader.documents.handlers.get? uri = some handler → handler.Loyal) ∧
      crossSession.begun.map Resource.description =
        ["file [/tmp/vfs/b.xml]", "file [/tmp/vfs/b.xml]", "file [/tmp/vfs/a.xml]",
          "file [/tmp/vfs/b.xml]", "file [/tmp/vfs/b.xml]", "file [/tmp/vfs/a.xml]"] ∧
      (problemsOf .error crossSession.journal).length = 4 ∧ crossSession.Inside [] := by
  have hloyal : ∀ uri handler,
      crossLoader.documents.handlers.get? uri = some handler → handler.Loyal := by
    intro uri handler h
    rw [show crossLoader.documents.handlers = [("urn:x", .including)] from rfl, Table.get?_cons] at h
    split at h
    · exact Option.some.inj h ▸ Handler.including_loyal
    · cases h
  obtain ⟨hbegun, hproblems⟩ : crossSession.begun.map Resource.description =
        ["file [/tmp/vfs/b.xml]", "file [/tmp/vfs/b.xml]", "file [/tmp/vfs/a.xml]",
          "file [/tmp/vfs/b.xml]", "file [/tmp/vfs/b.xml]", "file [/tmp/vfs/a.xml]"] ∧
      (problemsOf .error crossSession.journal).length = 4 := by
    decide +kernel
  have hkept := (Loader.loading_is_chain hloyal 3 (throw .exhausted)).1 crossUses
  exact ⟨hloyal, hbegun, hproblems, hkept.2.1⟩

end BeanCatalog
