import BeanCatalog.Proofs.Loading.Relations

namespace BeanCatalog

def Reading.Outlasts {α : Type} (act deeper : Reading α) : Prop :=
  ∀ s, (act s).1 = .error .exhausted ∨ deeper s = act s

structure Importer.Outlasts (importer deeper : Importer) : Prop where
  location (location : String) (loaded : List Resource) (s : Session) :
    (importer.loadLocation location loaded s).1.1 = .error .exhausted ∨
      deeper.loadLocation location loaded s = importer.loadLocation location loaded s
  resource (r : Resource) : Reading.Outlasts (importer.loadResource r) (deeper.loadResource r)

def SameUnless {β : Type} (failed : β → Prop) (act act' : StateM Session β) : Prop :=
  ∀ s, failed (act s).1 ∨ act' s = act s

namespace SameUnless

variable {β γ : Type} {failed : β → Prop} {failed' : γ → Prop}

theorem refl (act : StateM Session β) : SameUnless failed act act := fun _ => .inr rfl

theorem bind {act act' : StateM Session β} {next next' : β → StateM Session γ}
    (ha : SameUnless failed act act') (hn : ∀ b, SameUnless failed' (next b) (next' b))
    (hf : ∀ b s, failed b → failed' (next b s).1) :
    SameUnless failed' (act >>= next) (act' >>= next') := by
  intro s
  change failed' (next (act s).1 (act s).2).1 ∨
    next' (act' s).1 (act' s).2 = next (act s).1 (act s).2
  rcases ha s with h | h
  · exact .inl (hf _ _ h)
  · rw [h]
    exact hn _ _

end SameUnless

def Exhausted {α : Type} (outcome : Except Failure α) : Prop := outcome = .error .exhausted

namespace Reading.Outlasts

variable {α β : Type} {act deeper : Reading α}

theorem refl (act : Reading α) : Outlasts act act := fun _ => .inr rfl

theorem bind {next next' : α → Reading β} (ha : Outlasts act deeper)
    (hn : ∀ a, Outlasts (next a) (next' a)) : Outlasts (act >>= next) (deeper >>= next') := by
  have hrun : SameUnless Exhausted act.run deeper.run := ha
  have hbind : SameUnless Exhausted (act.run >>= ExceptT.bindCont next)
      (deeper.run >>= ExceptT.bindCont next') := by
    refine hrun.bind (fun o => ?_) fun o s ho => ?_
    · cases o with
      | error f => exact .refl _
      | ok a => exact hn a
    · rw [ho]
      rfl
  exact hbind

theorem lift {load load' : StateM Session LoadOutcome} {next next' : LoadOutcome → Reading β}
    (hl : SameUnless (fun outcome => Exhausted outcome.1) load load')
    (hn : ∀ outcome, Outlasts (next outcome) (next' outcome))
    (hf : ∀ loaded s, (next (.error .exhausted, loaded) s).1 = .error .exhausted) :
    Outlasts (liftM load >>= next) (liftM load' >>= next') := by
  have hbind : SameUnless Exhausted (load >>= fun outcome => (next outcome).run)
      (load' >>= fun outcome => (next' outcome).run) := by
    refine hl.bind hn fun (o, loaded) s ho => ?_
    obtain rfl : o = .error .exhausted := ho
    exact hf loaded s
  exact hbind

theorem withFreshNames (ha : Outlasts act deeper) :
    Outlasts (withFreshNames act) (withFreshNames deeper) := by
  intro s
  unfold Reading.withFreshNames
  rcases ha { s with usedNames := [] } with he | he
  · exact .inl he
  · rw [he]
    exact .inr rfl

theorem whileLoading (r : Resource) {act deeper : Reading Nat} (ha : Outlasts act deeper) :
    Outlasts (whileLoading r act) (whileLoading r deeper) := by
  intro s
  unfold Reading.whileLoading
  rcases ha { s with loading := r :: s.loading, entries := .began r :: s.entries } with he | he
  · exact .inl he
  · rw [he]
    exact .inr rfl

end Reading.Outlasts

namespace Loader

variable {l : Loader}

theorem relation_outlasts (l : Loader) :
    LoadRelation l l (fun _ => Reading.Outlasts) (SameUnless fun outcome => Exhausted outcome.1)
    where
  alike := ⟨l.reporter, rfl⟩
  steps importer importer' r :=
    .of_quiet (T := fun _ => Reading.Outlasts) (fun _ => .refl _) (fun ha hn => ha.bind hn)
      (fun ha => ha.withFreshNames) (some importer')
  fails f := .refl _
  loading r _ _ ha := ha.whileLoading r
  settled _ := .refl _
  further loaded act deeper _ _ ha hn := by
    have hrun : SameUnless Exhausted act.run deeper.run := ha
    refine hrun.bind (fun o => ?_) fun o s ho => ?_
    · cases o with
      | error f => exact .refl _
      | ok n => exact hn n
    · rw [ho]
      rfl
  concluded location _ _ ha := by
    refine SameUnless.bind ha (fun _ => .refl _) fun (o, loaded) s ho => ?_
    obtain rfl : o = .error .exhausted := ho
    rfl
  imported importer importer' r e location _ _ ha := by
    refine .lift ha (fun _ => .refl _) fun loaded s => ?_
    rw [Context.endImport_escapes (by cases LocationKind.of location <;> rfl)]
    rfl
  before ha hrest := by
    refine .lift ha (fun (o, loaded) => ?_) fun loaded s => rfl
    cases o with
    | error f => exact .refl _
    | ok count => exact hrest

theorem importer_outlasts (hh : l.documents.handlers = []) (depth : Nat) :
    (l.importer depth).Outlasts (l.importer (depth + 1)) := by
  induction depth with
  | zero => exact ⟨fun _ _ _ => .inl rfl, fun _ _ => .inl rfl⟩
  | succ depth ih =>
    have hrelated : Importer.Related Reading.Outlasts
        (SameUnless fun outcome => Exhausted outcome.1) (l.importer depth) (l.importer (depth + 1)) :=
      ⟨ih.location, ih.resource⟩
    have hL := l.relation_outlasts.layered hh
    exact ⟨hL.loadLocation hrelated, hL.loadResource hrelated⟩

theorem importer_deeper (hh : l.documents.handlers = []) (depth more : Nat) :
    (l.importer depth).Outlasts (l.importer (depth + more)) := by
  induction more with
  | zero => exact ⟨fun _ _ _ => .inr rfl, fun _ => .refl _⟩
  | succ more ih =>
    have hstep := importer_outlasts hh (depth + more)
    constructor
    · intro location loaded s
      rcases ih.location location loaded s with he | he
      · exact .inl he
      · rw [← he]
        exact hstep.location location loaded s
    · intro r s
      rcases ih.resource r s with he | he
      · exact .inl he
      · rw [← he]
        exact hstep.resource r s

end Loader

end BeanCatalog
