import BeanCatalog.Proofs.Reading.Steps

namespace BeanCatalog

def JournalEntry.began? : JournalEntry → Option Resource
  | .began r => some r
  | _ => none

def Session.begun (s : Session) : List Resource := s.entries.filterMap JournalEntry.began?

def Reporter.Refuses : Reporter → Failure → Prop
  | .failFast, .reported _ => True
  | .unable, .unsupported => True
  | _, _ => False

namespace Reading

variable {α β : Type}

def Quiet (reporter : Reporter) (act : Reading α) : Prop :=
  ∀ s, (act s).2.loading = s.loading ∧ (act s).2.begun = s.begun ∧
    s.entries ⊆ (act s).2.entries ∧ ∀ f, (act s).1 = .error f → reporter.Refuses f

namespace Quiet

variable {reporter : Reporter}

theorem pure (a : α) : Quiet reporter (pure a) := by
  intro s
  refine ⟨rfl, rfl, List.Subset.refl _, ?_⟩
  intro f h
  cases h

theorem bind {act : Reading α} {next : α → Reading β} (ha : Quiet reporter act)
    (hn : ∀ a, Quiet reporter (next a)) : Quiet reporter (act >>= next) := by
  intro s
  obtain ⟨hl, hb, he, hf⟩ := ha s
  rcases h : act s with ⟨f | a, t⟩
  · rw [bind_error next h]
    rw [h] at hl hb he hf
    refine ⟨hl, hb, he, ?_⟩
    intro g hg
    cases hg
    exact hf f rfl
  · rw [bind_ok next h]
    rw [h] at hl hb he
    obtain ⟨hl', hb', he', hf'⟩ := hn a t
    exact ⟨hl'.trans hl, hb'.trans hb, List.Subset.trans he he', hf'⟩

theorem get : Quiet reporter (get : Reading Session) := by
  intro s
  refine ⟨rfl, rfl, List.Subset.refl _, ?_⟩
  intro f h
  cases h

theorem modify {g : Session → Session} (hl : ∀ s, (g s).loading = s.loading)
    (he : ∀ s, (g s).entries = s.entries) : Quiet reporter (modify g : Reading Unit) := by
  intro s
  have hb : (g s).begun = s.begun := congrArg (List.filterMap JournalEntry.began?) (he s)
  refine ⟨hl s, hb, fun _ hm => he s ▸ hm, ?_⟩
  intro f h
  cases h

theorem enter {e : JournalEntry} (he : e.began? = none) : Quiet reporter (enter e) := by
  intro s
  refine ⟨rfl, List.filterMap_cons_none he, List.subset_cons_self _ _, ?_⟩
  intro f h
  cases h

theorem remark (r : Remark) : Quiet reporter (remark r) := enter rfl

theorem withFreshNames {act : Reading α} (ha : Quiet reporter act) :
    Quiet reporter (withFreshNames act) := fun s => ha { s with usedNames := [] }

theorem ite (b : Bool) {act other : Reading α} (ha : Quiet reporter act)
    (ho : Quiet reporter other) : Quiet reporter (if b then act else other) := by
  cases b with
  | true => exact ha
  | false => exact ho

theorem foldlM {step : β → α → Reading β} (h : ∀ b a, Quiet reporter (step b a)) (l : List α)
    (b : β) : Quiet reporter (l.foldlM step b) := by
  induction l generalizing b with
  | nil => exact pure b
  | cons a l ih =>
    rw [List.foldlM_cons]
    exact bind (h b a) fun c => ih c

theorem remarks (l : List Replacement) :
    Quiet reporter (forIn l PUnit.unit fun r _ => do
      Reading.remark (.replaced r)
      Pure.pure (ForInStep.yield PUnit.unit)) := by
  induction l with
  | nil => exact pure _
  | cons r l ih =>
    rw [List.forIn_cons]
    refine bind (bind (remark _) fun _ => pure _) fun step => ?_
    cases step with
    | done u => exact pure u
    | yield u => exact ih

theorem register (calls : List (RegistryCall Definition)) : Quiet reporter (register calls) := by
  refine bind get fun s => ?_
  refine bind (enter rfl) fun _ => ?_
  refine bind (modify (fun _ => rfl) fun _ => rfl) fun _ => ?_
  exact bind (remarks _) fun _ => pure _

theorem take (severity : Severity) (p : Problem) : Quiet reporter (reporter.take severity p) := by
  refine bind (enter rfl) fun _ => ?_
  cases reporter with
  | collecting => exact remark _
  | unable =>
    intro s
    refine ⟨rfl, rfl, List.Subset.refl _, ?_⟩
    intro f h
    cases h
    trivial
  | failFast =>
    cases severity with
    | warning => exact remark _
    | error =>
      intro s
      refine ⟨rfl, rfl, List.Subset.refl _, ?_⟩
      intro f h
      cases h
      trivial

end Quiet

end Reading

open Reading

namespace Context

variable {ctx : Context}

theorem error_quiet (fault : Fault) (e : Element) (cause : Option Failure) :
    Quiet ctx.reporter (ctx.error fault e cause) := Quiet.take _ _

theorem warning_quiet (fault : Fault) (e : Element) : Quiet ctx.reporter (ctx.warning fault e) :=
  Quiet.take _ _

theorem fire_quiet (event : Event) : Quiet ctx.reporter (ctx.fire event) := by
  unfold fire
  split
  · exact Quiet.enter rfl
  · exact Quiet.pure _

theorem enroll_quiet (e : Element) (enrolment : Enrolment) :
    Quiet ctx.reporter (ctx.enroll e enrolment) := by
  refine Quiet.bind (Quiet.register _) fun refusal => ?_
  cases refusal with
  | some refusal => exact error_quiet _ _ _
  | none => exact fire_quiet _

end Context

theorem Reading.Quiet.steps (ctx : Context) (importer : Option Importer) :
    StepRelation ctx (ctx.via importer) fun _ act _ => Quiet ctx.reporter act where
  alike := ⟨ctx.reporter, importer, rfl⟩
  done a := Quiet.pure a
  bind ha hn := Quiet.bind ha hn
  session hn _ _ := Quiet.bind Quiet.get hn
  names _ := Quiet.modify (fun _ => rfl) fun _ => rfl
  remark := Quiet.remark
  fresh ha := Quiet.withFreshNames ha
  enter he := Quiet.enter (by cases he <;> rfl)
  report _ _ _ _ := Quiet.take _ _
  enroll e enrolment := Context.enroll_quiet e enrolment

namespace Context

variable {ctx : Context}

theorem registerAlias_quiet (e : Element) : Quiet ctx.reporter (ctx.registerAlias e) :=
  enroll_quiet e (.naming (e.attr "name") (e.attr "alias"))

theorem aliasNamed_quiet (e : Element) : Quiet ctx.reporter (ctx.aliasNamed e) :=
  (Quiet.steps ctx none).aliasNamed e

theorem aliasElement_quiet (e : Element) : Quiet ctx.reporter (ctx.aliasElement e) :=
  (Quiet.steps ctx none).aliasElement e

end Context

theorem Scope.addChild_quiet (scope : Scope) (d : Definition) (e : Element) :
    Quiet scope.context.reporter (scope.addChild d e) :=
  (Quiet.steps scope.context none).addChild scope.defaults d e

namespace DocumentReader

variable {reader : DocumentReader}

theorem profilesAccepted_quiet {ctx : Context} (e : Element) :
    Quiet ctx.reporter (reader.profilesAccepted ctx e) :=
  (Quiet.steps ctx none).profilesAccepted e

theorem keepBean_quiet (hh : reader.handlers = []) {scope : Scope} {e : Element}
    (parsed : Option Holder) : Quiet scope.context.reporter (reader.keepBean scope e parsed) :=
  (Quiet.steps scope.context none).keepBean (.of_nil hh) scope.defaults e parsed

theorem beanElement_quiet (hh : reader.handlers = []) (scope : Scope) (e : Element) :
    Quiet scope.context.reporter (reader.beanElement scope e) :=
  (Quiet.steps scope.context none).beanElement (.of_nil hh) scope.defaults e

end DocumentReader

theorem StepRelation.of_quiet {ctx : Context} {T : ∀ ⦃α : Type⦄, Reading α → Reading α → Prop}
    (hquiet : ∀ {α : Type} {act : Reading α}, Quiet ctx.reporter act → T act act)
    (hbind : ∀ {α β : Type} {act act' : Reading α} {next next' : α → Reading β},
      T act act' → (∀ a, T (next a) (next' a)) → T (act >>= next) (act' >>= next'))
    (hfresh : ∀ {act act' : Reading Unit},
      T act act' → T (withFreshNames act) (withFreshNames act'))
    (importer : Option Importer) : StepRelation ctx (ctx.via importer) T where
  alike := ⟨ctx.reporter, importer, rfl⟩
  done a := hquiet (.pure a)
  bind := hbind
  session hn _ _ := hbind (hquiet .get) hn
  names _ := hquiet (.modify (fun _ => rfl) fun _ => rfl)
  remark r := hquiet (.remark r)
  fresh := hfresh
  enter he := hquiet (.enter (by cases he <;> rfl))
  report _ _ _ _ := hquiet (.take _ _)
  enroll e enrolment := hquiet (Context.enroll_quiet e enrolment)

end BeanCatalog
