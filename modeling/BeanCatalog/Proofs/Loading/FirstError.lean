import BeanCatalog.Proofs.Loading.FailFast
import BeanCatalog.Proofs.Loading.Levels
import Mathlib.Data.List.Chain

/-!
The first error of a run that fails fast. The imports that the error leaves are at fault in turn, so
there are as many errors as there are loads open when the first one is reported. Each is the cause of
the next, and the last one is raised.
-/

namespace BeanCatalog

def JournalEntry.isError : JournalEntry → Bool
  | .problem .error _ => true
  | _ => false

def untilError (journal : List JournalEntry) : List JournalEntry :=
  journal.takeWhile fun entry => !entry.isError

structure Untroubled (journal : List JournalEntry) : Prop where
  errors : problemsOf .error journal = []
  level : Level journal

/-- The journal of a document that an error has ended, with the error reported last. The error is the
document's own, or an import in the document has failed for the error of another one. -/
inductive Tripped : List JournalEntry → Problem → Prop
  | here {before : List JournalEntry} {p : Problem} (hb : Untroubled before) :
      Tripped (before ++ [.problem .error p]) p
  | inside {before inner : List JournalEntry} {r : Resource} {p q : Problem} (hb : Untroubled before)
      (hi : Tripped inner p) (hq : q.cause = some (.reported p)) :
      Tripped (before ++ .began r :: (inner ++ [.ended r false, .problem .error q])) q

inductive LoadTripped : List JournalEntry → Problem → Prop
  | intro {before inner : List JournalEntry} {r : Resource} {p : Problem} (hb : Untroubled before)
      (hi : Tripped inner p) : LoadTripped (before ++ .began r :: (inner ++ [.ended r false])) p

inductive Settled {β : Type} (raises : β → Problem → Prop)
    (tripped : List JournalEntry → Problem → Prop) (s : Session) (x : β × Session) : Prop
  | well (journal : List JournalEntry) (hj : s.Entered journal x.2) (hu : Untroubled journal)
      (hr : ∀ p, ¬raises x.1 p)
  | ill (journal : List JournalEntry) (p : Problem) (hj : s.Entered journal x.2)
      (ht : tripped journal p) (hr : raises x.1 p)

def Settles {β : Type} (raises : β → Problem → Prop) (tripped : List JournalEntry → Problem → Prop)
    (act : StateM Session β) : Prop :=
  ∀ s, Settled raises tripped s (act s)

variable {first rest journal : List JournalEntry} {p : Problem}

theorem Untroubled.append (hfirst : Untroubled first) (hrest : Untroubled rest) :
    Untroubled (first ++ rest) where
  errors := by
    rw [problemsOf_append, hfirst.errors, hrest.errors]
    rfl
  level := hfirst.level.append hrest.level

theorem Untroubled.nil : Untroubled [] := ⟨rfl, .nil⟩

theorem Untroubled.entry {e : JournalEntry} (he : e.isError = false) (hm : e.marksLoad = false) :
    Untroubled [e] where
  errors := by
    cases e with
    | problem severity p => cases severity <;> first | rfl | cases he
    | _ => rfl
  level := .one hm

theorem Untroubled.load {inner : List JournalEntry} (hi : Untroubled inner) (r : Resource)
    (completed : Bool) : Untroubled (.began r :: (inner ++ [.ended r completed])) where
  errors := by
    change problemsOf .error (inner ++ [.ended r completed]) = []
    rw [problemsOf_append, hi.errors]
    rfl
  level := .load hi.level .nil

theorem Tripped.after (hfirst : Untroubled first) (h : Tripped rest p) :
    Tripped (first ++ rest) p := by
  cases h with
  | here hb =>
    rw [← List.append_assoc]
    exact .here (hfirst.append hb)
  | inside hb hi hq =>
    rw [← List.append_assoc]
    exact .inside (hfirst.append hb) hi hq

theorem LoadTripped.after (hfirst : Untroubled first) (h : LoadTripped rest p) :
    LoadTripped (first ++ rest) p := by
  obtain ⟨hb, hi⟩ := h
  rw [← List.append_assoc]
  exact .intro (hfirst.append hb) hi

theorem LoadTripped.reported {q : Problem} (h : LoadTripped journal p)
    (hq : q.cause = some (.reported p)) : Tripped (journal ++ [.problem .error q]) q := by
  obtain @⟨before, inner, r, _, hb, hi⟩ := h
  have hinside := Tripped.inside (r := r) hb hi hq
  simpa only [List.append_assoc, List.cons_append, List.nil_append] using hinside

section

variable {β γ : Type} {raises : β → Problem → Prop} {raises' : γ → Problem → Prop}
  {tripped tripped' : List JournalEntry → Problem → Prop} {s t : Session}

theorem Settled.after {x : β × Session} (hs : s.Entered first t) (hu : Untroubled first)
    (ht : ∀ rest p, tripped rest p → tripped (first ++ rest) p) (h : Settled raises tripped t x) :
    Settled raises tripped s x := by
  cases h with
  | well rest hx hu' hr => exact .well _ (hs.trans hx) (hu.append hu') hr
  | ill rest p hx htripped hr => exact .ill _ p (hs.trans hx) (ht _ _ htripped) hr

theorem Settles.bind {act : StateM Session β} {next : β → StateM Session γ}
    (ht : ∀ first rest p, Untroubled first → tripped' rest p → tripped' (first ++ rest) p)
    (ha : Settles raises tripped act)
    (hn : ∀ b, (∀ p, ¬raises b p) → Settles raises' tripped' (next b))
    (hu : ∀ b p, raises b p → ∀ t : Session, ∃ own q, t.Entered own (next b t).2 ∧
      raises' (next b t).1 q ∧ ∀ journal, tripped journal p → tripped' (journal ++ own) q) :
    Settles raises' tripped' (act >>= next) := by
  intro s
  change Settled raises' tripped' s (next (act s).1 (act s).2)
  have h := ha s
  generalize act s = x at h
  cases h with
  | well journal hx huntroubled hr =>
    exact (hn x.1 hr x.2).after hx huntroubled fun rest p => ht _ rest p huntroubled
  | ill journal p hx htripped hr =>
    obtain ⟨own, q, hown, hr', hjoin⟩ := hu x.1 p hr x.2
    exact .ill _ q (hx.trans hown) (hjoin journal htripped) hr'

theorem Settles.calm {act : StateM Session β}
    (h : ∀ s : Session, ∃ journal, s.Entered journal (act s).2 ∧ Untroubled journal ∧
      ∀ p, ¬raises (act s).1 p) : Settles raises tripped act := by
  intro s
  obtain ⟨journal, hj, hu, hr⟩ := h s
  exact .well journal hj hu hr

theorem Settles.pure {b : β} (hb : ∀ p, ¬raises b p) : Settles raises tripped (pure b) :=
  .calm fun s => ⟨[], .refl s, .nil, hb⟩

theorem Settles.follow {act : StateM Session β} {next : β → StateM Session γ}
    (ht : ∀ first rest p, Untroubled first → tripped rest p → tripped (first ++ rest) p)
    (ha : Settles raises tripped act)
    (hn : ∀ b, (∀ p, ¬raises b p) → Settles raises' tripped (next b))
    (hu : ∀ b p, raises b p → ∃ c, next b = Pure.pure c ∧ raises' c p) :
    Settles raises' tripped (act >>= next) := by
  refine .bind ht ha hn fun b p hp t => ?_
  obtain ⟨c, hc, hr⟩ := hu b p hp
  rw [hc]
  exact ⟨[], p, .refl t, hr, fun journal h => by rwa [List.append_nil]⟩

end

theorem LocationKind.ne_reported {kind : LocationKind} {f : Failure} (hf : kind.contains f = false) :
    f.kind ≠ .reported := by
  intro hk
  rw [LocationKind.contains, hk] at hf
  cases hf

def Reading.Trips {α : Type} (act : Reading α) : Prop :=
  Settles (fun o p => o = .error (.reported p)) Tripped act.run

def Reading.LoadTrips (act : Reading Nat) : Prop :=
  Settles (fun o p => o = .error (.reported p)) LoadTripped act.run

def LoadsTrip (act : StateM Session LoadOutcome) : Prop :=
  Settles (fun outcome p => outcome.1 = .error (.reported p)) LoadTripped act

namespace Reading.Trips

variable {α β : Type}

theorem entry {act : Reading α} {e : JournalEntry} (he : e.isError = false) (hm : e.marksLoad = false)
    (h : ∀ s : Session, s.Entered [e] (act s).2) (ho : ∀ s p, (act s).1 ≠ .error (.reported p)) :
    Trips act :=
  .calm fun s => ⟨[e], h s, .entry he hm, ho s⟩

theorem pure (a : α) : Trips (pure a) := Settles.pure nofun

theorem throw {f : Failure} (hf : f.kind ≠ .reported) : Trips (throw f : Reading α) := by
  refine Settles.pure fun p hp => hf ?_
  cases hp
  rfl

theorem bind {act : Reading α} {next : α → Reading β} (ha : Trips act) (hn : ∀ a, Trips (next a)) :
    Trips (act >>= next) := by
  change Settles _ _ (act.run >>= ExceptT.bindCont next)
  refine Settles.follow (fun first rest p => Tripped.after) ha (fun o ho => ?_) fun o p ho => ?_
  · cases o with
    | error f => exact Settles.pure fun p hp => ho p (by cases hp; rfl)
    | ok a => exact hn a
  · subst ho
    exact ⟨_, rfl, rfl⟩

theorem lift {load : StateM Session LoadOutcome} {next : LoadOutcome → Reading α}
    (hl : LoadsTrip load) (hn : ∀ outcome, Trips (next outcome))
    (hu : ∀ p loaded, ∀ t : Session, ∃ own q,
      t.Entered own (next (.error (.reported p), loaded) t).2 ∧
      (next (.error (.reported p), loaded) t).1 = .error (.reported q) ∧
        ∀ journal, LoadTripped journal p → Tripped (journal ++ own) q) :
    Trips (liftM load >>= next) := by
  refine Settles.bind (fun first rest p => Tripped.after) hl (fun outcome _ => hn outcome)
    fun (o, loaded) p ho => ?_
  cases ho
  exact hu p loaded

theorem silent {e : JournalEntry} (he : e.Silent) : Trips (enter e) :=
  entry (by cases he <;> rfl) (by cases he <;> rfl) (fun _ => rfl) fun _ _ => nofun

theorem take (severity : Severity) (p : Problem) : Trips (Reporter.failFast.take severity p) := by
  intro s
  cases severity with
  | warning =>
    exact .well [.problem .warning p, .remark (.problem .warning p.text)] rfl
      ((Untroubled.entry rfl rfl).append (.entry (e := .remark _) rfl rfl)) fun _ => nofun
  | error => exact .ill [.problem .error p] p rfl (.here .nil) rfl

theorem withFreshNames {act : Reading Unit} (ha : Trips act) : Trips (withFreshNames act) := by
  intro s
  cases ha { s with usedNames := [] } with
  | well journal hj hu hr => exact .well journal hj hu hr
  | ill journal p hj ht hr => exact .ill journal p hj ht hr

theorem whileLoading {act : Reading Nat} (h : Trips act) (r : Resource) :
    LoadTrips (whileLoading r act) := by
  intro s
  cases h (s.beginning r) with
  | well inner hj hu hr => exact .well _ hj.load (hu.load r _) hr
  | ill inner p hj ht hr =>
    have hload := hj.load
    rw [hr] at hload
    exact .ill _ p hload (.intro .nil ht) hr

theorem register (calls : List (RegistryCall Definition)) : Trips (register calls) := by
  refine .calm fun s => ⟨registered s.registry calls, ?_, ⟨?_, ?_⟩, ?_⟩
  · change s.Entered _ (Reading.register calls s).2
    rw [register_apply]
    rfl
  · exact problemsOf_registered _ _ _
  · exact .plain (registered_plain _ _)
  · intro p
    change (Reading.register calls s).1 ≠ _
    rw [register_apply]
    exact nofun

end Reading.Trips

namespace Loader

variable {l : Loader}

theorem steps_trip (hr : l.reporter = .failFast) (importer importer' : Importer) (r : Resource) :
    StepRelation (l.context importer r) (l.context importer' r) fun _ act _ => act.Trips where
  alike := ⟨l.reporter, some importer', rfl⟩
  done := .pure
  bind := .bind
  session hn _ _ := .bind (.calm fun s => ⟨[], .refl s, .nil, fun _ => nofun⟩) hn
  names _ := .calm fun s => ⟨[], .refl s, .nil, fun _ => nofun⟩
  remark r := .silent (.remark r)
  fresh := .withFreshNames
  enter := .silent
  report severity fault e cause := by
    unfold Context.report context
    rw [hr]
    exact .take _ _
  enroll e enrolment := by
    refine .bind (.register _) fun refusal => ?_
    cases refusal with
    | some refusal =>
      unfold Context.error Context.report context
      rw [hr]
      exact .take _ _
    | none =>
      let event := enrolment.event ((l.context importer r).source e)
      change Reading.Trips (if l.listening then Reading.enter (.event event) else pure ())
      cases l.listening with
      | true => exact .entry rfl rfl (fun _ => rfl) fun _ _ => nofun
      | false => exact .pure ()

theorem endImport_raises (hr : l.reporter = .failFast) (importer : Importer) (r : Resource)
    (e : Element) (location : String) (p : Problem) (loaded : List Resource) (s : Session) :
    ∃ q : Problem, q.cause = some (.reported p) ∧
      s.Entered [.problem .error q]
        ((l.context importer r).endImport e location (.error (.reported p), loaded) s).2 ∧
      ((l.context importer r).endImport e location (.error (.reported p), loaded) s).1 =
        .error (.reported q) := by
  have hc : (LocationKind.of location).contains (.reported p) = true := by
    cases LocationKind.of location <;> rfl
  rw [Context.endImport_contained hc]
  unfold Context.error Context.report context
  rw [hr]
  exact ⟨⟨_, _, some (.reported p), _⟩, rfl, rfl, rfl⟩

theorem loadResource_trips (importer : Importer) (r : Resource)
    (h : (l.readResource importer r).Trips) : (l.loadResource importer r).LoadTrips := by
  intro s
  change Settled _ _ s (l.loadResource importer r s)
  rw [loadResource_apply]
  split
  · exact .well [] (.refl s) .nil fun _ => nofun
  split
  · next f hf =>
    refine .well [] (.refl s) .nil fun p hp => ?_
    rcases present_error hf with rfl | ⟨rfl, -⟩ <;> cases hp
  · exact .well [] (.refl s) .nil fun _ => nofun
  · have hremark : Untroubled [.remark (.loading r.description)] := .entry rfl rfl
    let begun : Session := { s with entries := .remark (.loading r.description) :: s.entries }
    have hbegun : s.Entered [.remark (.loading r.description)] begun := rfl
    exact (h.whileLoading r begun).after hbegun hremark fun rest p => LoadTripped.after hremark

theorem relation_trips (hh : l.documents.handlers = []) (hr : l.reporter = .failFast) :
    LayeredRelation l l (fun _ act _ => act.Trips) (fun act _ => act.LoadTrips)
      fun act _ => LoadsTrip act where
  alike := ⟨l.reporter, rfl⟩
  steps := steps_trip hr
  handlers _ _ := .of_nil hh
  fails _ := .throw
  exhausted := Settles.pure nofun
  resource importer _ r := loadResource_trips importer r
  settled outcome ho := by
    refine Settles.pure fun p hp => ho _ hp rfl
  further loaded _ _ _ _ ha hn := by
    refine Settles.follow (fun first rest p => LoadTripped.after) ha (fun o ho => ?_) fun o p ho => ?_
    · cases o with
      | error f => exact Settles.pure fun p hp => ho p (by cases hp; rfl)
      | ok n => exact hn n
    · subst ho
      exact ⟨_, rfl, rfl⟩
  concluded location _ _ ha := by
    refine Settles.follow (fun first rest p => LoadTripped.after) ha (fun (o, loaded) ho => ?_)
      fun (o, loaded) p ho => ?_
    · cases o with
      | error f => exact Settles.pure fun p hp => ho p (by cases hp; rfl)
      | ok count =>
        exact .calm fun s => ⟨[.remark (.loaded count location)], rfl, .entry rfl rfl, fun _ => nofun⟩
    · cases ho
      exact ⟨_, rfl, rfl⟩
  imported importer importer' r e location _ _ ha := by
    refine .lift ha (fun outcome => ?_) fun p loaded t => ?_
    · refine (steps_trip hr importer importer' r).endImport e location outcome fun f hf => ?_
      exact .throw (LocationKind.ne_reported hf)
    · obtain ⟨q, hq, hown, hraised⟩ := endImport_raises hr importer r e location p loaded t
      exact ⟨_, q, hown, hraised, fun journal hj => hj.reported hq⟩

end Loader

theorem problemsOf_error_eq_nil (h : problemsOf .error journal = []) :
    ∀ entry ∈ journal, entry.isError = false := by
  intro entry hm
  have hnone := List.filterMap_eq_nil_iff.mp h entry hm
  cases entry with
  | problem severity p => cases severity <;> first | rfl | cases hnone
  | _ => rfl

theorem untilError_append (h : problemsOf .error first = []) (rest : List JournalEntry) :
    untilError (first ++ rest) = first ++ untilError rest := by
  refine List.takeWhile_append_of_pos fun entry hm => ?_
  rw [problemsOf_error_eq_nil h entry hm]
  rfl

structure ErrorsTold (journal : List JournalEntry) (outcome : Except Failure Nat) : Prop where
  count : (problemsOf .error journal).length = (stillLoading [] (untilError journal)).length
  chain : (problemsOf .error journal).IsChain fun p q => q.cause = some (.reported p)
  raised (p : Problem) :
    outcome = .error (.reported p) ↔ (problemsOf .error journal).getLast? = some p

/-- At most one error is reported, and if an error is raised it is that one. -/
def FirstOnly (journal : List JournalEntry) (outcome : Except Failure Nat) : Prop :=
  (problemsOf .error journal).length ≤ 1 ∧
    ∀ p, outcome = .error (.reported p) → (problemsOf .error journal).head? = some p

theorem Tripped.errors (h : Tripped journal p) :
    (problemsOf .error journal).IsChain (fun p q => q.cause = some (.reported p)) ∧
      (problemsOf .error journal).getLast? = some p ∧
      ∃ opened : List Resource, (problemsOf .error journal).length = opened.length + 1 ∧
        ∀ begun rest, stillLoading begun (untilError (journal ++ rest)) = opened ++ begun := by
  induction h with
  | @here before p hb =>
    have herrors : problemsOf .error (before ++ [.problem .error p]) = [p] := by
      rw [problemsOf_append, hb.errors]
      rfl
    rw [herrors]
    refine ⟨.singleton p, rfl, [], rfl, fun begun rest => ?_⟩
    rw [List.append_assoc, untilError_append hb.errors, stillLoading_append, hb.level.stillLoading]
    rfl
  | @inside before inner r p q hb hi hq ih =>
    obtain ⟨hchain, hlast, opened, hcount, hopened⟩ := ih
    have herrors : problemsOf .error
        (before ++ .began r :: (inner ++ [.ended r false, .problem .error q])) =
          problemsOf .error inner ++ [q] := by
      rw [problemsOf_append, hb.errors]
      change problemsOf .error (inner ++ [.ended r false, .problem .error q]) = _
      rw [problemsOf_append]
      rfl
    rw [herrors]
    refine ⟨hchain.append (.singleton q) fun x hx y hy => ?_, List.getLast?_concat,
      opened ++ [r], ?_, fun begun rest => ?_⟩
    · cases hlast.symm.trans hx
      cases hy
      exact hq
    · rw [List.length_append, List.length_append, hcount]
      rfl
    · -- The load of the inner document is open beneath those that were open in it.
      rw [List.append_assoc, untilError_append hb.errors, stillLoading_append,
        hb.level.stillLoading, List.cons_append, List.append_assoc]
      change stillLoading (r :: begun) (untilError (inner ++ _)) = _
      rw [hopened, List.append_assoc]
      rfl

theorem LoadTripped.told (h : LoadTripped journal p) :
    ErrorsTold journal (.error (.reported p)) := by
  obtain @⟨before, inner, r, _, hb, hi⟩ := h
  obtain ⟨hchain, hlast, opened, hcount, hopened⟩ := hi.errors
  have herrors : problemsOf .error (before ++ .began r :: (inner ++ [.ended r false])) =
      problemsOf .error inner := by
    rw [problemsOf_append, hb.errors]
    change problemsOf .error (inner ++ [.ended r false]) = _
    rw [problemsOf_append]
    exact List.append_nil _
  have hstill : stillLoading [] (untilError (before ++ .began r :: (inner ++ [.ended r false]))) =
      opened ++ [r] := by
    rw [untilError_append hb.errors, stillLoading_append, hb.level.stillLoading]
    exact hopened [r] _
  constructor
  · rw [herrors, hcount, hstill, List.length_append]
    rfl
  · rw [herrors]
    exact hchain
  · intro q
    rw [herrors, hlast]
    constructor
    · rintro ⟨⟩
      rfl
    · rintro ⟨⟩
      rfl

theorem Untroubled.told (h : Untroubled journal) {outcome : Except Failure Nat}
    (ho : ∀ p, outcome ≠ .error (.reported p)) : ErrorsTold journal outcome := by
  have huntil : untilError journal = journal := by
    simpa [untilError] using untilError_append h.errors []
  constructor
  · rw [h.errors, huntil, h.level.stillLoading]
    rfl
  · rw [h.errors]
    exact .nil
  · intro p
    rw [h.errors]
    exact iff_of_false (ho p) nofun

theorem ErrorsTold.firstOnly_iff {outcome : Except Failure Nat} (h : ErrorsTold journal outcome) :
    FirstOnly journal outcome ↔ (stillLoading [] (untilError journal)).length ≤ 1 := by
  rw [← h.count]
  refine ⟨fun hfirst => hfirst.1, fun hone => ⟨hone, fun p hp => ?_⟩⟩
  have hlast := (h.raised p).mp hp
  generalize problemsOf .error journal = errors at hone hlast
  match errors, hone with
  | [q], _ => exact hlast

namespace Loader

variable {l : Loader}

/-- Under a reporter that fails fast, what is raised is the last of the errors that the load reports,
and each is the cause of the next. The first one is the only one exactly when it is not reported
inside an import, where two loads or more are open. -/
theorem failFast_first_iff (hh : l.documents.handlers = []) (hr : l.reporter = .failFast)
    (depth : Nat) (s : Session) :
    (∀ location loaded, ∃ journal,
      s.Entered journal ((l.importer depth).loadLocation location loaded s).2 ∧
        ErrorsTold journal ((l.importer depth).loadLocation location loaded s).1.1 ∧
        (FirstOnly journal ((l.importer depth).loadLocation location loaded s).1.1 ↔
          (stillLoading [] (untilError journal)).length ≤ 1)) ∧
      ∀ r, ∃ journal, s.Entered journal ((l.importer depth).loadResource r s).2 ∧
        ErrorsTold journal ((l.importer depth).loadResource r s).1 ∧
        (FirstOnly journal ((l.importer depth).loadResource r s).1 ↔
          (stillLoading [] (untilError journal)).length ≤ 1) := by
  have hrelated := (relation_trips hh hr).importer depth
  refine ⟨fun location loaded => ?_, fun r => ?_⟩
  · cases hrelated.location location loaded s with
    | well journal hj hu ho =>
      have htold := hu.told ho
      exact ⟨journal, hj, htold, htold.firstOnly_iff⟩
    | ill journal p hj ht ho =>
      have htold := ht.told
      rw [← ho] at htold
      exact ⟨journal, hj, htold, htold.firstOnly_iff⟩
  · cases hrelated.resource r s with
    | well journal hj hu ho =>
      have htold := hu.told ho
      exact ⟨journal, hj, htold, htold.firstOnly_iff⟩
    | ill journal p hj ht ho =>
      have htold := ht.told
      rw [← ho] at htold
      exact ⟨journal, hj, htold, htold.firstOnly_iff⟩

end Loader

def nestedRun (location : String) : LoadOutcome × Session :=
  ((nestedLoader.reporting .failFast).importer 2).loadLocation location [] {}

theorem nestedRun_raises_first :
    (nestedLoader.reporting .failFast).documents.handlers = [] ∧
      (nestedLoader.reporting .failFast).reporter = .failFast ∧
      (problemsOf .error (nestedRun "b.xml").2.journal).map (·.fault) = [.emptyName] ∧
      (nestedRun "b.xml").1.1.toBool = false ∧
      FirstOnly (nestedRun "b.xml").2.journal (nestedRun "b.xml").1.1 := by
  obtain ⟨hfaults, hfails, hopen⟩ :
      (problemsOf .error (nestedRun "b.xml").2.journal).map (·.fault) = [.emptyName] ∧
        (nestedRun "b.xml").1.1.toBool = false ∧
        (stillLoading [] (untilError (nestedRun "b.xml").2.journal)).length = 1 := by
    decide +kernel
  obtain ⟨journal, hj, -, hfirst⟩ :=
    (Loader.failFast_first_iff (l := nestedLoader.reporting .failFast) rfl rfl 2 {}).1 "b.xml" []
  have hjournal : (nestedRun "b.xml").2.journal = journal := hj.journal
  rw [hjournal] at hopen ⊢
  exact ⟨rfl, rfl, hjournal ▸ hfaults, hfails, hfirst.mpr hopen.le⟩

theorem nestedRun_not_first :
    (problemsOf .error (nestedRun "a.xml").2.journal).map (·.fault) =
        [.emptyName, .importFailed .relative "b.xml"] ∧
      ¬FirstOnly (nestedRun "a.xml").2.journal (nestedRun "a.xml").1.1 := by
  have hfaults : (problemsOf .error (nestedRun "a.xml").2.journal).map (·.fault) =
      [.emptyName, .importFailed .relative "b.xml"] := by
    decide +kernel
  refine ⟨hfaults, fun hfirst => ?_⟩
  have htwo := congrArg List.length hfaults
  rw [List.length_map] at htwo
  exact absurd (htwo ▸ hfirst.1) (by decide)

end BeanCatalog
