import BeanCatalog.Environment.Placeholder

namespace BeanCatalog

namespace Resolution

variable {α β : Type} {act : Resolution α} {noted later : List String}

theorem bind_ok {a : α} (next : α → Resolution β) (h : act noted = (.ok a, later)) :
    (act >>= next) noted = next a later := by
  change ExceptT.bindCont next (act noted).1 (act noted).2 = _
  rw [h]
  rfl

theorem bind_error {err : PlaceholderError} (next : α → Resolution β)
    (h : act noted = (.error err, later)) : (act >>= next) noted = (.error err, later) := by
  change ExceptT.bindCont next (act noted).1 (act noted).2 = _
  rw [h]
  rfl

end Resolution

structure ResolutionRelation (mode mode' : PlaceholderMode)
    (T : ∀ ⦃α : Type⦄, Resolution α → Resolution α → Prop) : Prop where
  done {α : Type} (a : α) : T (pure a) (pure a)
  bind {α β : Type} {act act' : Resolution α} {next next' : α → Resolution β} :
    T act act' → (∀ a, T (next a) (next' a)) → T (act >>= next) (act' >>= next')
  circular {α : Type} (body text : String) :
    T (throw (.circular body text) : Resolution α) (throw (.circular body text))
  missing (key text piece : List Char) :
    T (mode.missing key text piece) (mode'.missing key text piece)

namespace ResolutionRelation

variable {mode mode' : PlaceholderMode} {T : ∀ ⦃α : Type⦄, Resolution α → Resolution α → Prop}
  (hT : ResolutionRelation mode mode' T)
include hT

theorem mapM {α β : Type} {step step' : α → Resolution β} (h : ∀ a, T (step a) (step' a))
    (l : List α) : T (l.mapM step) (l.mapM step') := by
  induction l with
  | nil => exact hT.done []
  | cons a l ih =>
    rw [List.mapM_cons, List.mapM_cons]
    exact hT.bind (h a) fun b => hT.bind ih fun bs => hT.done (b :: bs)

theorem resolveChars (properties : Table String) (more : Nat)
    (hstop : ∀ visiting text,
      T (throw .tooDeep) (BeanCatalog.resolveChars properties mode' more visiting text))
    (depth : Nat) (visiting : List (List Char)) (text : List Char) :
    T (BeanCatalog.resolveChars properties mode depth visiting text)
      (BeanCatalog.resolveChars properties mode' (depth + more) visiting text) := by
  induction depth generalizing visiting text with
  | zero =>
    rw [Nat.zero_add]
    exact hstop visiting text
  | succ depth ih =>
    rw [Nat.add_right_comm]
    unfold BeanCatalog.resolveChars
    refine hT.bind (hT.mapM (fun piece => ?_) _) fun parts => hT.done parts.flatten
    cases piece with
    | literal cs => exact hT.done cs
    | placeholder inner =>
      refine hT.bind (ih visiting inner) fun body => ?_
      by_cases hv : body ∈ visiting
      · simp only [hv, if_true]
        exact hT.circular _ _
      · simp only [hv, if_false]
        cases (properties.get? (String.ofList (splitDefault body).1)).map String.toList <|>
            (splitDefault body).2 with
        | none => exact hT.missing _ _ _
        | some value => exact ih (body :: visiting) value

end ResolutionRelation

end BeanCatalog
