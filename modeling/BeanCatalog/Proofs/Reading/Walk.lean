import BeanCatalog.Proofs.Reading.Quiet

namespace BeanCatalog

namespace Reading

variable {α : Type} {P : List Resource → List Resource → Prop}
  {E : Failure → List Resource → List Resource → Prop} {reporter : Reporter}

/-- What holds of the resources under loading and of those begun holds again after the step, or else
the step fails as `E` says. -/
def Keeps (P : List Resource → List Resource → Prop)
    (E : Failure → List Resource → List Resource → Prop) (act : Reading α) : Prop :=
  ∀ s, P s.loading s.begun →
    (∀ a t, act s = (.ok a, t) → P t.loading t.begun) ∧
      ∀ f t, act s = (.error f, t) → E f t.loading t.begun

theorem Quiet.keeps {act : Reading α} (ha : Quiet reporter act)
    (hE : ∀ f loading begun, reporter.Refuses f → P loading begun → E f loading begun) :
    Keeps P E act := by
  intro s hs
  obtain ⟨hl, hb, -, hf⟩ := ha s
  constructor
  · intro a t h
    rw [h] at hl hb
    rwa [hl, hb]
  · intro f t h
    rw [h] at hl hb hf
    rw [hl, hb]
    exact hE f _ _ (hf f rfl) hs

theorem Keeps.bind {β : Type} {act : Reading α} {next : α → Reading β} (ha : Keeps P E act)
    (hn : ∀ a, Keeps P E (next a)) : Keeps P E (act >>= next) := by
  intro s hs
  obtain ⟨hok, herror⟩ := ha s hs
  rcases h : act s with ⟨f | a, t⟩
  · rw [bind_error next h]
    refine ⟨fun b u hu => ?_, fun g u hu => ?_⟩
    · cases hu
    · cases hu
      exact herror f t h
  · rw [bind_ok next h]
    exact hn a t (hok a t h)

theorem throw_keeps {f : Failure} {s : Session} (hE : E f s.loading s.begun) :
    (∀ a t, (throw f : Reading α) s = (.ok a, t) → P t.loading t.begun) ∧
      ∀ g t, (throw f : Reading α) s = (.error g, t) → E g t.loading t.begun := by
  constructor
  · intro a t h
    cases h
  · intro g t h
    cases h
    exact hE

theorem withFreshNames_apply {act : Reading α} {s u : Session} {o : Except Failure α}
    (h : act { s with usedNames := [] } = (o, u)) :
    withFreshNames act s = (o, { u with usedNames := s.usedNames }) := by
  unfold withFreshNames
  rw [h]

theorem Keeps.withFreshNames {act : Reading α} (ha : Keeps P E act) :
    Keeps P E (withFreshNames act) := by
  intro s hs
  obtain ⟨hok, herror⟩ := ha { s with usedNames := [] } hs
  rcases h : act { s with usedNames := [] } with ⟨f | a, u⟩
  · rw [withFreshNames_apply h]
    refine ⟨fun b t ht => ?_, fun g t ht => ?_⟩
    · cases ht
    · cases ht
      exact herror f u h
  · rw [withFreshNames_apply h]
    refine ⟨fun b t ht => ?_, fun g t ht => ?_⟩
    · cases ht
      exact hok a u h
    · cases ht

theorem keeps_steps {ctx : Context} (importer : Option Importer)
    (hE : ∀ f loading begun, ctx.reporter.Refuses f → P loading begun → E f loading begun) :
    StepRelation ctx (ctx.via importer) fun _ act _ => Keeps P E act :=
  .of_quiet (T := fun _ act _ => Keeps P E act) (fun ha => ha.keeps hE) (fun ha hn => ha.bind hn)
    (fun ha => ha.withFreshNames) importer

end Reading

end BeanCatalog
