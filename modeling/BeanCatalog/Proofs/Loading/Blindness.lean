import BeanCatalog.Proofs.Loading.Journals

namespace BeanCatalog

def Enters {β : Type} (act : StateM Session β) (s : Session) (b : β) (t : Session)
    (journal : List JournalEntry) : Prop :=
  ∀ entries, act { s with entries := entries } = (b, { t with entries := journal.reverse ++ entries })

def Agree (Alike : List JournalEntry → List JournalEntry → Prop) {β : Type}
    (act act' : StateM Session β) : Prop :=
  ∀ s, ∃ b t journal journal', Alike journal journal' ∧ Enters act s b t journal ∧
    Enters act' s b t journal'

/-- A step that does not look at the journal. -/
def Blind {β : Type} (act : StateM Session β) : Prop := Agree Eq act act

structure Congruent (Alike : List JournalEntry → List JournalEntry → Prop) : Prop where
  refl (journal : List JournalEntry) : Alike journal journal
  append {first first' rest rest' : List JournalEntry} :
    Alike first first' → Alike rest rest' → Alike (first ++ rest) (first' ++ rest')

theorem Congruent.eq : Congruent Eq where
  refl _ := rfl
  append hfirst hrest := by rw [hfirst, hrest]

section

variable {β γ : Type} {Alike : List JournalEntry → List JournalEntry → Prop} {s t u : Session}
  {first rest : List JournalEntry} {b : β}

theorem Enters.bind {act : StateM Session β} {next : β → StateM Session γ} {c : γ}
    (ha : Enters act s b t first) (hn : Enters (next b) t c u rest) :
    Enters (act >>= next) s c u (first ++ rest) := by
  intro entries
  change next (act { s with entries := entries }).1 (act { s with entries := entries }).2 = _
  rw [ha entries, hn, List.reverse_append, List.append_assoc]

variable (hA : Congruent Alike)
include hA

theorem Agree.of_blind {act : StateM Session β} (h : Blind act) : Agree Alike act act := by
  intro s
  obtain ⟨b, t, journal, journal', rfl, hact, -⟩ := h s
  exact ⟨b, t, journal, journal, hA.refl journal, hact, hact⟩

theorem Agree.bind {act act' : StateM Session β} {next next' : β → StateM Session γ}
    (ha : Agree Alike act act') (hn : ∀ b, Agree Alike (next b) (next' b)) :
    Agree Alike (act >>= next) (act' >>= next') := by
  intro s
  obtain ⟨b, t, first, first', hfirst, hact, hact'⟩ := ha s
  obtain ⟨c, u, rest, rest', hrest, hnext, hnext'⟩ := hn b t
  exact ⟨c, u, _, _, hA.append hfirst hrest, hact.bind hnext, hact'.bind hnext'⟩

theorem Agree.pure (b : β) : Agree Alike (pure b) (pure b) := fun s =>
  ⟨b, s, [], [], hA.refl [], fun _ => rfl, fun _ => rfl⟩

end

namespace Reading

def Agree (Alike : List JournalEntry → List JournalEntry → Prop) {α : Type}
    (act act' : Reading α) : Prop :=
  BeanCatalog.Agree Alike act.run act'.run

def Blind {α : Type} (act : Reading α) : Prop := BeanCatalog.Blind act.run

namespace Agree

variable {α β : Type} {Alike : List JournalEntry → List JournalEntry → Prop}

theorem bind (hA : Congruent Alike) {act act' : Reading α} {next next' : α → Reading β}
    (ha : Agree Alike act act') (hn : ∀ a, Agree Alike (next a) (next' a)) :
    Agree Alike (act >>= next) (act' >>= next') := by
  change BeanCatalog.Agree Alike (act.run >>= ExceptT.bindCont next)
    (act'.run >>= ExceptT.bindCont next')
  refine BeanCatalog.Agree.bind hA ha fun o => ?_
  cases o with
  | error f => exact .pure hA _
  | ok a => exact hn a

theorem pure (hA : Congruent Alike) (a : α) : Agree Alike (pure a) (pure a) :=
  BeanCatalog.Agree.pure hA _

theorem session {next next' : Session → Reading α} (hn : ∀ s, Agree Alike (next s) (next' s))
    (hnext : ∀ s entries, next { s with entries := entries } = next s)
    (hnext' : ∀ s entries, next' { s with entries := entries } = next' s) :
    Agree Alike ((get : Reading Session) >>= next) ((get : Reading Session) >>= next') := by
  intro s
  obtain ⟨o, t, journal, journal', halike, hact, hact'⟩ := hn s s
  refine ⟨o, t, journal, journal', halike, fun entries => ?_, fun entries => ?_⟩
  · change next { s with entries := entries } { s with entries := entries } = _
    rw [hnext]
    exact hact entries
  · change next' { s with entries := entries } { s with entries := entries } = _
    rw [hnext']
    exact hact' entries

theorem withFreshNames {act act' : Reading Unit} (ha : Agree Alike act act') :
    Agree Alike (withFreshNames act) (withFreshNames act') := by
  intro s
  obtain ⟨o, t, journal, journal', halike, hact, hact'⟩ := ha { s with usedNames := [] }
  have hfresh {act : Reading Unit} {journal : List JournalEntry}
      (h : Enters act.run { s with usedNames := [] } o t journal) :
      Enters (Reading.withFreshNames act).run s o { t with usedNames := s.usedNames } journal := by
    intro entries
    change Reading.withFreshNames act { s with entries := entries } = _
    unfold Reading.withFreshNames
    rw [show act { s with entries := entries, usedNames := [] } = _ from h entries]
  exact ⟨o, _, journal, journal', halike, hfresh hact, hfresh hact'⟩

end Agree

namespace Blind

variable {α β : Type}

theorem of_enters {act : Reading α}
    (h : ∀ s : Session, ∃ o t journal, Enters act.run s o t journal) : Blind act := by
  intro s
  obtain ⟨o, t, journal, hact⟩ := h s
  exact ⟨o, t, journal, journal, rfl, hact, hact⟩

theorem pure (a : α) : Blind (pure a) := Agree.pure .eq a

theorem bind {act : Reading α} {next : α → Reading β} (ha : Blind act) (hn : ∀ a, Blind (next a)) :
    Blind (act >>= next) :=
  Agree.bind .eq ha hn

theorem lift {act : StateM Session LoadOutcome} {next : LoadOutcome → Reading α}
    (ha : BeanCatalog.Blind act) (hn : ∀ outcome, Blind (next outcome)) :
    Blind (liftM act >>= next) :=
  BeanCatalog.Agree.bind .eq ha hn

theorem session {next : Session → Reading α} (hn : ∀ s, Blind (next s))
    (hnext : ∀ s entries, next { s with entries := entries } = next s) :
    Blind ((get : Reading Session) >>= next) :=
  Agree.session hn hnext hnext

theorem enter (e : JournalEntry) : Blind (enter e) :=
  of_enters fun s => ⟨.ok (), s, [e], fun _ => rfl⟩

theorem throw (f : Failure) : Blind (throw f : Reading α) :=
  of_enters fun s => ⟨.error f, s, [], fun _ => rfl⟩

theorem take (reporter : Reporter) (severity : Severity) (p : Problem) :
    Blind (reporter.take severity p) := by
  refine .bind (enter _) fun _ => ?_
  cases reporter <;> cases severity <;> first | exact enter _ | exact throw _

theorem register (calls : List (RegistryCall Definition)) : Blind (register calls) := by
  exact of_enters fun s => ⟨.ok (s.registry.calls (fun _ _ => false) calls).refusal,
    { s with registry := s.registry.afterCalls calls }, registered s.registry calls,
    fun entries => register_apply calls { s with entries := entries }⟩

theorem whileLoading (r : Resource) {act : Reading Nat} (ha : Blind act) :
    Blind (whileLoading r act) := by
  refine of_enters fun s => ?_
  obtain ⟨o, t, inside, -, -, hact, -⟩ := ha { s with loading := r :: s.loading }
  refine ⟨o, { t with loading := t.loading.filter fun q => !Resource.same r q },
    .began r :: (inside ++ [.ended r o.toBool]), fun entries => ?_⟩
  refine (Loader.whileLoading_apply (hact (.began r :: entries))).trans ?_
  simp

end Blind

end Reading

def Importer.Blind (importer : Importer) : Prop :=
  Importer.Related (fun act _ => Reading.Blind act) (fun act _ => BeanCatalog.Blind act) importer
    importer

/-- A handler that does not look at the journal, as far as the importer that it is given does not. -/
structure Handler.Blind (handler : Handler) : Prop where
  parse (scope : Scope) (e : Element)
      (hi : ∀ importer, scope.context.importer = some importer → importer.Blind) :
    Reading.Blind (handler.parse scope e)
  decorate (scope : Scope) (e : Element) (holder : Holder) (name : Option String)
      (hi : ∀ importer, scope.context.importer = some importer → importer.Blind) :
    Reading.Blind (handler.decorate scope e holder name)

theorem Context.steps_blind (ctx : Context) (importer : Option Importer) :
    StepRelation ctx (ctx.via importer) fun _ act _ => act.Blind where
  alike := ⟨ctx.reporter, importer, rfl⟩
  done := .pure
  bind := .bind
  session hn hnext _ := .session hn hnext
  names names := .of_enters fun s =>
    ⟨.ok (), { s with usedNames := names ++ s.usedNames }, [], fun _ => rfl⟩
  remark r := .enter (.remark r)
  fresh := Reading.Agree.withFreshNames
  enter _ := .enter _
  report _ _ _ _ := .take _ _ _
  enroll e enrolment := by
    refine .bind (.register _) fun refusal => ?_
    cases refusal with
    | some refusal => exact .take _ _ _
    | none =>
      let event := enrolment.event (ctx.source e)
      change Reading.Blind (if ctx.listening then Reading.enter (.event event) else pure ())
      cases ctx.listening with
      | true => exact .enter _
      | false => exact .pure ()

namespace Loader

variable {l : Loader}

theorem steps_blind (importer importer' : Importer) (r : Resource) :
    StepRelation (l.context importer r) (l.context importer' r) fun _ act _ => act.Blind :=
  (l.context importer r).steps_blind (some importer')

theorem relation_blind :
    LoadRelation l l (fun _ act _ => act.Blind) fun act _ => Blind act where
  alike := ⟨l.reporter, rfl⟩
  steps := steps_blind
  fails := .throw
  loading r _ _ := .whileLoading r
  settled := .pure .eq
  further loaded _ _ _ _ ha hn := by
    refine Agree.bind .eq ha fun o => ?_
    cases o with
    | error f => exact .pure .eq _
    | ok n => exact hn n
  concluded location _ _ ha := by
    refine Agree.bind .eq ha fun (o, loaded) => ?_
    cases o with
    | error f => exact .pure .eq _
    | ok count =>
      exact Agree.bind .eq (Reading.Blind.enter (.remark (.loaded count location))) fun _ =>
        .pure .eq _
  imported importer importer' r e location _ _ ha :=
    .lift ha fun outcome => (steps_blind importer importer' r).endImport e location outcome
      fun f _ => .throw f
  before ha hrest := by
    refine .lift ha fun (o, loaded) => ?_
    cases o with
    | error f => exact .throw f
    | ok count => exact hrest

theorem layered_blind
    (hh : ∀ uri handler, l.documents.handlers.get? uri = some handler → handler.Blind) :
    LayeredRelation l l (fun _ act _ => act.Blind) (fun act _ => act.Blind) fun act _ =>
      Blind act :=
  relation_blind.layeredBy fun {importer _} hi r =>
    have himporter : ∀ other, (l.context importer r).importer = some other → other.Blind := by
      rintro other ⟨⟩
      exact ⟨hi.location, hi.resource⟩
    { parse := fun h _ e => (hh _ _ h).parse _ e himporter
      decorate := fun h _ e holder name => (hh _ _ h).decorate _ e holder name himporter }

theorem importer_blind
    (hh : ∀ uri handler, l.documents.handlers.get? uri = some handler → handler.Blind) (depth : Nat) :
    (l.importer depth).Blind :=
  (layered_blind hh).importer depth

end Loader

end BeanCatalog
