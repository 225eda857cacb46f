import BeanCatalog.Proofs.Reading.Parts

namespace BeanCatalog

namespace Element

def setting? (e : Element) (name : String) : Option String :=
  if e.attr name = "" ∨ e.attr name = defaultValue then none else some (e.attr name)

def inherited? (scopes : List Element) (key : DefaultKey) : Option String :=
  scopes.findSome? (·.setting? key.attribute)

def givenName (e : Element) : String :=
  (e.attr? "id").getD ((Text.tokenize (e.attr "name")).headD "")

end Element

open Element

/-- The settings of a definition are those of the bean, or else of the scopes around it. -/
structure Definition.Follows (d : Definition) (e : Element) (scopes : List Element) : Prop where
  lazyInit : (if d.lazyInit then "true" else "false") =
    ((e.setting? "lazy-init").or (inherited? scopes .lazyInit)).getD "false"
  autowire : d.autowire = ((e.setting? "autowire").or (inherited? scopes .autowire)).getD "no"
  initMethod : d.initMethod =
    if e.hasAttr "init-method" then e.attr? "init-method" else inherited? scopes .initMethod
  destroyMethod : d.destroyMethod =
    if e.hasAttr "destroy-method" then e.attr? "destroy-method" else inherited? scopes .destroyMethod
  autowireCandidate : d.autowireCandidate =
    match e.setting? "autowire-candidate", inherited? scopes .autowireCandidates with
    | some value, _ => value == "true"
    | none, some patterns =>
      e.givenName = "" || (Text.tokenize patterns ",").any (Text.matchesPattern · e.givenName)
    | none, none => true

theorem resolve_inherited (scopes : List Element) (key : DefaultKey) :
    Defaults.resolve (scopes.map .ofElement) key = inherited? scopes key := by
  unfold Defaults.resolve inherited?
  rw [List.findSome?_map]
  rfl

namespace Scope

variable {scope : Scope} {e : Element} {scopes : List Element}

theorem valueOr_eq (hs : scope.defaults = scopes.map .ofElement) (name : String)
    (key : DefaultKey) (fallback : String) :
    scope.valueOr e name key fallback =
      ((e.setting? name).or (inherited? scopes key)).getD fallback := by
  unfold valueOr setting?
  rw [hs, resolve_inherited]
  dsimp only
  split <;> rfl

theorem methodName_eq (hs : scope.defaults = scopes.map .ofElement) (name : String)
    (key : DefaultKey) :
    scope.methodName e name key =
      if e.hasAttr name then e.attr? name else inherited? scopes key := by
  unfold methodName
  rw [hs, resolve_inherited]

theorem autowireCandidate_eq (hs : scope.defaults = scopes.map .ofElement) (name : String) :
    scope.autowireCandidate e name =
      match e.setting? "autowire-candidate", inherited? scopes .autowireCandidates with
      | some value, _ => value == "true"
      | none, some patterns =>
        name = "" || (Text.tokenize patterns ",").any (Text.matchesPattern · name)
      | none, none => true := by
  unfold autowireCandidate setting?
  rw [hs, resolve_inherited]
  by_cases h : e.attr "autowire-candidate" = "" ∨ e.attr "autowire-candidate" = defaultValue
  · have hnot : ¬(e.attr "autowire-candidate" ≠ "" ∧ e.attr "autowire-candidate" ≠ defaultValue) :=
      fun hn => h.elim hn.1 hn.2
    rw [if_pos h]
    dsimp only
    rw [if_neg hnot]
    cases inherited? scopes .autowireCandidates <;> rfl
  · rw [if_neg h]
    dsimp only
    rw [if_pos (not_or.mp h)]

theorem attributesOf_follows (hs : scope.defaults = scopes.map .ofElement)
    {className : Option String} {d : Definition}
    (h : scope.attributesOf e className e.givenName = .ok d) : d.Follows e scopes := by
  unfold attributesOf at h
  rw [valueOr_eq hs, valueOr_eq hs] at h
  dsimp only at h
  split at h
  · cases h
  next hlazy =>
    split at h
    · cases h
    · cases h
      constructor
      · dsimp only
        rcases Decidable.not_and_iff_or_not.mp hlazy with hlazy | hlazy <;>
          rw [Decidable.not_not.mp hlazy] <;> rfl
      · rfl
      · exact methodName_eq hs _ _
      · exact methodName_eq hs _ _
      · exact autowireCandidate_eq hs _

end Scope

namespace Reading

variable {α β : Type}

def Gives (act : Reading α) (P : α → Prop) : Prop := ∀ s a t, act s = (.ok a, t) → P a

namespace Gives

variable {P : α → Prop} {Q : β → Prop}

theorem pure {a : α} (h : P a) : Gives (pure a) P := by
  rintro s b t ⟨⟩
  exact h

theorem bind {act : Reading α} {next : α → Reading β} (ha : Gives act P)
    (hn : ∀ a, P a → Gives (next a) Q) : Gives (act >>= next) Q := by
  intro s b t h
  rcases hact : act s with ⟨f | a, u⟩
  · rw [bind_error next hact] at h
    cases h
  · rw [bind_ok next hact] at h
    exact hn a (ha s a u hact) u b t h

theorem any (act : Reading α) : Gives act fun _ => True := fun _ _ _ _ => trivial

theorem foldlM {step : β → α → Reading β} (hstep : ∀ b a, Q b → Gives (step b a) Q) {b : β}
    (hb : Q b) (l : List α) : Gives (l.foldlM step b) Q := by
  induction l generalizing b with
  | nil => exact pure hb
  | cons a l ih =>
    rw [List.foldlM_cons]
    exact bind (hstep b a hb) fun b hb => ih hb

end Gives

end Reading

namespace Scope

variable {scope : Scope} {e : Element} {scopes : List Element}

theorem namesOf_given (e : Element) :
    Reading.Gives (namesOf e) fun names => names.1 = e.givenName := by
  unfold namesOf Element.givenName
  dsimp only
  cases e.attr? "id" with
  | some id => exact .pure rfl
  | none =>
    cases Text.tokenize (e.attr "name") with
    | nil => exact .pure rfl
    | cons name aliases => exact .bind (.any _) fun _ _ => .pure rfl

theorem addChild_follows {d : Definition} (h : d.Follows e scopes) (child : Element) :
    Reading.Gives (scope.addChild d child) (·.Follows e scopes) := by
  have hkeep (parsed : Except Fault PropertyValue) (store : PropertyValue → Definition)
      (hs : ∀ v, (store v).Follows e scopes) :
      Reading.Gives (scope.keep child parsed store d) (·.Follows e scopes) := by
    cases parsed with
    | ok v => exact .pure (hs v)
    | error fault => exact .bind (.any _) fun _ _ => .pure h
  unfold addChild
  split
  · exact .pure h
  split
  · exact .pure { h with }
  split
  · exact hkeep _ _ fun v => { h with }
  split
  · exact hkeep _ _ fun v => { h with }
  · exact .pure h

theorem parseBean_follows (hs : scope.defaults = scopes.map .ofElement) (e : Element) :
    Reading.Gives (scope.parseBean e) fun parsed => ∀ holder, parsed = some holder →
      holder.definition.Follows e scopes ∧ (e.givenName ≠ "" → holder.name = e.givenName) := by
  rw [parseBean_eq]
  refine .bind (namesOf_given e) fun (name, aliases) hname => ?_
  obtain rfl : name = e.givenName := hname
  dsimp only
  split
  · exact .bind (.any _) fun _ _ => .pure nofun
  unfold parseNamed parseDefinition
  refine .bind (.any _) fun taken _ => ?_
  cases taken with
  | false => exact .pure nofun
  | true =>
    cases hd : scope.attributesOf e (e.attr? "class") e.givenName with
    | error fault => exact .bind (.any _) fun _ _ => .pure nofun
    | ok d =>
      have hfollows := attributesOf_follows hs hd
      refine .bind (.foldlM (fun d child hd => addChild_follows hd child) hfollows _) fun d hd => ?_
      refine .bind (.any _) fun registry _ => .pure ?_
      rintro holder ⟨⟩
      exact ⟨hd, fun hname => if_neg hname⟩

end Scope

end BeanCatalog
