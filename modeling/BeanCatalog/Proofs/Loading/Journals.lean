import BeanCatalog.Proofs.Loading.Laws
import BeanCatalog.Proofs.Registry.Uses

namespace BeanCatalog

abbrev JournalSpec := Registry Definition → List JournalEntry → Registry Definition → Prop

namespace Session

def Entered (s : Session) (journal : List JournalEntry) (t : Session) : Prop :=
  t.entries = journal.reverse ++ s.entries

def Obeys (P : JournalSpec) (s t : Session) : Prop :=
  ∃ journal, s.Entered journal t ∧ P s.registry journal t.registry

variable {s t u : Session} {first rest : List JournalEntry}

theorem Entered.refl (s : Session) : s.Entered [] s := rfl

theorem Entered.trans (hst : s.Entered first t) (htu : t.Entered rest u) :
    s.Entered (first ++ rest) u := by
  rw [Entered, htu, hst, List.reverse_append, List.append_assoc]

theorem Entered.unique (hfirst : s.Entered first t) (hrest : s.Entered rest t) : rest = first := by
  have h : rest.reverse ++ s.entries = first.reverse ++ s.entries := hrest.symm.trans hfirst
  exact List.reverse_inj.mp (List.append_cancel_right h)

theorem Entered.one {entry : JournalEntry} (h : t.entries = entry :: s.entries) :
    s.Entered [entry] t := h

theorem Entered.journal {journal : List JournalEntry} (h : ({} : Session).Entered journal t) :
    t.journal = journal := by
  rw [Session.journal, h, List.append_nil, List.reverse_reverse]

def beginning (s : Session) (r : Resource) : Session :=
  { s with loading := r :: s.loading, entries := .began r :: s.entries }

theorem Entered.load {r : Resource} {act : Reading Nat} {inside : List JournalEntry}
    (h : (s.beginning r).Entered inside (act (s.beginning r)).2) :
    s.Entered (.began r :: (inside ++ [.ended r (act (s.beginning r)).1.toBool]))
      (Reading.whileLoading r act s).2 := by
  unfold Entered at h ⊢
  change JournalEntry.ended r _ :: (act (s.beginning r)).2.entries = _
  rw [h]
  simp [beginning]

end Session

structure JournalLaw (l : Loader) (P : JournalSpec) : Prop where
  nil (r : Registry Definition) : P r [] r
  append {r r' r'' : Registry Definition} {first rest : List JournalEntry} :
    P r first r' → P r' rest r'' → P r (first ++ rest) r''
  silent (r : Registry Definition) {entry : JournalEntry} : entry.Silent → P r [entry] r
  problem (r : Registry Definition) (severity : Severity) (p : Problem) :
    P r [.problem severity p] r
  load {r r' : Registry Definition} {inside : List JournalEntry} (q : Resource) (completed : Bool) :
    P r inside r' → P r (.began q :: (inside ++ [.ended q completed])) r'
  enroll (importer : Importer) (q : Resource) (e : Element) (enrolment : Enrolment) (s : Session) :
    s.Obeys P ((l.context importer q).enroll e enrolment s).2

namespace Session.Obeys

variable {P : JournalSpec} {l : Loader} {s t u : Session}

theorem refl (hP : JournalLaw l P) (s : Session) : s.Obeys P s := ⟨[], rfl, hP.nil _⟩

theorem trans (hP : JournalLaw l P) (hst : s.Obeys P t) (htu : t.Obeys P u) : s.Obeys P u := by
  obtain ⟨first, hfirst, hs⟩ := hst
  obtain ⟨rest, hrest, ht⟩ := htu
  exact ⟨first ++ rest, hfirst.trans hrest, hP.append hs ht⟩

theorem one {entry : JournalEntry} (he : t.entries = entry :: s.entries)
    (hr : P s.registry [entry] t.registry) : s.Obeys P t := ⟨[entry], he, hr⟩

end Session.Obeys

namespace JournalLaw

variable {l : Loader} {P : JournalSpec}

theorem session (hP : JournalLaw l P) : SessionLaw l (Session.Obeys P) where
  refl := .refl hP
  trans := .trans hP
  names s _ := .refl hP s
  silent _ _ he := .one rfl (hP.silent _ he)
  problem _ severity p := .one rfl (hP.problem _ severity p)
  load r _ ha s := by
    obtain ⟨inside, hentered, hinside⟩ := ha (s.beginning r)
    exact ⟨_, hentered.load, hP.load r _ hinside⟩
  enroll := hP.enroll

theorem relation (hP : JournalLaw l P) :
    LoadRelation l l (fun _ act _ => ∀ s : Session, s.Obeys P (act s).2) fun act _ =>
      ∀ s : Session, s.Obeys P (act s).2 :=
  hP.session.relation

section

variable (hP : JournalLaw l P) (hh : l.documents.handlers = []) (depth : Nat)
include hP hh

theorem registerDocument (root : Element) (r : Resource) (s : Session) :
    s.Obeys P (l.registerDocument (l.importer depth) root r s).2 :=
  (hP.relation.layered hh).registerDocument ((hP.relation.layered hh).importer depth) root r s

theorem loadResource (r : Resource) (s : Session) :
    s.Obeys P ((l.importer depth).loadResource r s).2 :=
  ((hP.relation.layered hh).importer depth).resource r s

theorem loadLocation (location : String) (loaded : List Resource) (s : Session) :
    s.Obeys P ((l.importer depth).loadLocation location loaded s).2 :=
  ((hP.relation.layered hh).importer depth).location location loaded s

theorem loadEach (locations : List String) (s : Session) :
    s.Obeys P (l.loadEach depth locations s).2 :=
  hP.relation.loadEach hh depth locations s

end

end JournalLaw

namespace Reading

def replacedRemarks (replacements : List Replacement) : List JournalEntry :=
  replacements.map fun r => .remark (.replaced r)

theorem remark_replaced (replacements : List Replacement) (s : Session) :
    (forIn replacements PUnit.unit fun r _ => do
        Reading.remark (.replaced r)
        pure (ForInStep.yield PUnit.unit) : Reading PUnit) s =
      (.ok ⟨⟩, { s with entries := (replacedRemarks replacements).reverse ++ s.entries }) := by
  induction replacements generalizing s with
  | nil => rfl
  | cons r replacements ih =>
    rw [List.forIn_cons]
    refine (ih { s with entries := .remark (.replaced r) :: s.entries }).trans ?_
    simp [replacedRemarks]

def registered (r : Registry Definition) (calls : List (RegistryCall Definition)) :
    List JournalEntry :=
  .registering calls :: replacedRemarks (r.calls (fun _ _ => false) calls).replacements

theorem register_apply (calls : List (RegistryCall Definition)) (s : Session) :
    register calls s =
      (.ok (s.registry.calls (fun _ _ => false) calls).refusal,
        { s with
          registry := s.registry.afterCalls calls
          entries := (registered s.registry calls).reverse ++ s.entries }) := by
  let run := s.registry.calls (fun _ _ => false) calls
  let made : Session :=
    { s with entries := .registering calls :: s.entries, registry := run.registry }
  have hremarks := remark_replaced run.replacements made
  change ((forIn run.replacements PUnit.unit fun r _ => do
      Reading.remark (.replaced r)
      pure (ForInStep.yield PUnit.unit)) >>= fun _ => pure run.refusal) made = _
  rw [bind_ok _ hremarks]
  simp only [made, run, registered, Registry.afterCalls, List.reverse_cons, List.append_assoc,
    List.cons_append, List.nil_append]
  rfl

end Reading

theorem Reporter.take_error (reporter : Reporter) (p : Problem) (s : Session) :
    ∃ remarks : List Remark, (reporter.take .error p s).2 =
      { s with entries := (.problem .error p :: remarks.map .remark).reverse ++ s.entries } := by
  cases reporter with
  | collecting => exact ⟨[.problem .error p.text], rfl⟩
  | failFast => exact ⟨[], rfl⟩
  | unable => exact ⟨[], rfl⟩

namespace Context

variable (ctx : Context) (e : Element) {enrolment : Enrolment} {s : Session}

theorem enroll_accepted
    (hc : (s.registry.calls (fun _ _ => false) enrolment.calls).refusal = none) :
    (ctx.enroll e enrolment s).2 =
      { s with
        registry := s.registry.afterCalls enrolment.calls
        entries := (Reading.registered s.registry enrolment.calls ++
          if ctx.listening then [JournalEntry.event (enrolment.event (ctx.source e))] else []).reverse ++
            s.entries } := by
  unfold enroll
  rw [Reading.bind_ok _ (Reading.register_apply _ s), hc]
  unfold fire
  split
  · rw [List.reverse_append]
    rfl
  · rw [List.append_nil]
    rfl

theorem enroll_refused {refusal : Refusal}
    (hc : (s.registry.calls (fun _ _ => false) enrolment.calls).refusal = some refusal) :
    ∃ remarks : List Remark, (ctx.enroll e enrolment s).2 =
      { s with
        registry := s.registry.afterCalls enrolment.calls
        entries := (Reading.registered s.registry enrolment.calls ++
          JournalEntry.problem .error (ctx.problem enrolment.fault e (some (.refused refusal))) ::
            remarks.map JournalEntry.remark).reverse ++ s.entries } := by
  unfold enroll
  rw [Reading.bind_ok _ (Reading.register_apply _ s), hc]
  obtain ⟨remarks, ht⟩ := ctx.reporter.take_error
    (ctx.problem enrolment.fault e (some (.refused refusal)))
    { s with
      registry := s.registry.afterCalls enrolment.calls
      entries := (Reading.registered s.registry enrolment.calls).reverse ++ s.entries }
  refine ⟨remarks, ht.trans ?_⟩
  rw [List.reverse_append, List.append_assoc]

end Context

theorem replay_append (r : Registry Definition) (first rest : List JournalEntry) :
    replay r (first ++ rest) = replay (replay r first) rest := by
  induction first generalizing r with
  | nil => rfl
  | cons entry first ih => cases entry <;> exact ih _

theorem replay_still {r : Registry Definition} {journal : List JournalEntry}
    (h : ∀ calls, .registering calls ∉ journal) : replay r journal = r := by
  induction journal with
  | nil => rfl
  | cons entry journal ih =>
    have hrest : replay r journal = r := ih fun calls hm => h calls (List.mem_cons_of_mem _ hm)
    cases entry with
    | registering calls => exact absurd List.mem_cons_self (h calls)
    | _ => exact hrest

theorem replay_registered (r : Registry Definition) (calls : List (RegistryCall Definition)) :
    replay r (Reading.registered r calls) = r.afterCalls calls := by
  change replay (r.afterCalls calls) (Reading.replacedRemarks _) = _
  apply replay_still
  intro calls' hm
  simp [Reading.replacedRemarks] at hm

def Replays (r : Registry Definition) (journal : List JournalEntry) (r' : Registry Definition) :
    Prop :=
  r' = replay r journal

theorem Loader.replays_law (l : Loader) : JournalLaw l Replays where
  nil _ := rfl
  append hfirst hrest := by rw [Replays, hrest, hfirst, replay_append]
  silent _ _ he := by cases he <;> rfl
  problem _ _ _ := rfl
  load {r r' inside} q completed hinside := by
    change r' = replay r (inside ++ [.ended q completed])
    rw [replay_append, ← hinside]
    rfl
  enroll := by
    intro importer q e enrolment s
    cases hc : (s.registry.calls (fun _ _ => false) enrolment.calls).refusal with
    | none =>
      rw [Context.enroll_accepted _ _ hc]
      refine ⟨_, rfl, ?_⟩
      rw [Replays, replay_append, replay_registered]
      split <;> rfl
    | some refusal =>
      obtain ⟨remarks, ht⟩ := (l.context importer q).enroll_refused e hc
      rw [ht]
      refine ⟨_, rfl, ?_⟩
      rw [Replays, replay_append, replay_registered]
      refine (replay_still fun calls hm => ?_).symm
      simp at hm

end BeanCatalog
