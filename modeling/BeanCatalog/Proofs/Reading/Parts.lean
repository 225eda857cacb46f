import BeanCatalog.Reading.Document

namespace BeanCatalog

namespace Reading

variable {α β : Type}

theorem bind_ok {act : Reading α} {s t : Session} {a : α} (next : α → Reading β)
    (h : act s = (.ok a, t)) : (act >>= next) s = next a t := by
  change ExceptT.bindCont next (act s).1 (act s).2 = _
  rw [h]
  rfl

theorem bind_error {act : Reading α} {s t : Session} {f : Failure} (next : α → Reading β)
    (h : act s = (.error f, t)) : (act >>= next) s = (.error f, t) := by
  change ExceptT.bindCont next (act s).1 (act s).2 = _
  rw [h]
  rfl

end Reading

namespace Context

variable {ctx : Context}

variable (ctx) in
theorem importElement_blank {e : Element} (hb : Text.allBlank (e.attr "resource") = true) :
    ctx.importElement e = ctx.error .emptyLocation e := by
  unfold importElement
  simp only [hb, if_true]

def registerAlias (ctx : Context) (e : Element) : Reading Unit := do
  match ← Reading.register [.addAlias (e.attr "name") (e.attr "alias")] with
  | some refusal =>
    ctx.error (.aliasRefused (e.attr "name") (e.attr "alias")) e (some (.refused refusal))
  | none => ctx.fire (.aliased (e.attr "name") (e.attr "alias") (ctx.source e))

def aliasNamed (ctx : Context) (e : Element) : Reading Unit := do
  if Text.allBlank (e.attr "alias") then ctx.error .emptyAlias e
  if !Text.allBlank (e.attr "name") && !Text.allBlank (e.attr "alias") then ctx.registerAlias e

theorem aliasElement_eq (e : Element) : ctx.aliasElement e = (do
    if Text.allBlank (e.attr "name") then ctx.error .emptyName e
    ctx.aliasNamed e) := rfl

end Context

namespace Scope

variable (scope : Scope)

theorem parseCustom_nil (e : Element) :
    scope.parseCustom [] e = (do
      scope.context.error (.noHandler e.uri) e
      pure none) := by
  have hn : (e.uri.bind fun uri => Table.get? ([] : Table Handler) uri) = none := by
    cases e.uri <;> rfl
  unfold parseCustom
  rw [hn]

variable {scope}

theorem parseBean_eq (e : Element) : scope.parseBean e = (namesOf e >>= fun (name, aliases) =>
    match name, e.attr? "class" with
    | "", none => do
      scope.context.error .unnamed e
      pure none
    | _, _ => scope.parseNamed e name aliases) := rfl

end Scope

inductive Element.Imports : Element → Element → Prop
  | child {scope e : Element} (hs : scope.isDefault = true) (hm : .element e ∈ scope.contents)
      (he : e.isDefault = true) (hk : e.kind = .importing) : Imports scope e
  | nested {scope inner e : Element} (hs : scope.isDefault = true)
      (hm : .element inner ∈ scope.contents) (hi : inner.isDefault = true)
      (hk : inner.kind = .beans) (h : Imports inner e) : Imports scope e

def Context.via (ctx : Context) (importer : Option Importer) : Context :=
  { ctx with importer := importer }

namespace DocumentReader

variable (reader : DocumentReader)

def keepBean (scope : Scope) (e : Element) : Option Holder → Reading Unit
  | none => pure ()
  | some holder => do
    let holder ← scope.decorate reader.handlers e holder
    match ← Reading.register holder.calls with
    | some refusal =>
      scope.context.error (.definitionRefused holder.name) e (some (.refused refusal))
    | none => scope.context.fire (.component holder (scope.context.source e))

theorem beanElement_eq (scope : Scope) (e : Element) :
    reader.beanElement scope e = scope.parseBean e >>= reader.keepBean scope e := by
  unfold beanElement
  congr 1

def judge (environment : Environment) (e : Element) :
    Except ProfileError Bool :=
  let spec := e.attr "profile"
  if Text.allBlank spec then .ok true
  else
    let profiles := Text.tokenize spec reader.delimiters
    if profiles.isEmpty then .error .noNames else environment.accepts profiles

def readElement (scope : Scope) (e : Element) : Reading Unit :=
  if e.isDefault then
    match e.kind with
    | .importing => scope.context.importElement e
    | .aliasing => scope.context.aliasElement e
    | .bean => reader.beanElement scope e
    | .beans => reader.readScope scope.context scope.defaults e
    | .other => pure ()
  else do
    let _ ← scope.parseCustom reader.handlers e

theorem readContents_element (scope : Scope) (e : Element) (rest : List (Content Element)) :
    reader.readContents scope (.element e :: rest) =
      reader.readElement scope e >>= fun _ => reader.readContents scope rest := by
  rw [readContents]
  unfold readElement
  split
  · cases e.kind with
    | other => exact (pure_bind _ _).symm
    | _ => rfl
  · rw [bind_assoc]
    rfl

def admits (ctx : Context) (e : Element) : Reading Bool :=
  if e.isDefault then reader.profilesAccepted ctx e else pure true

def readInside (scope : Scope) (e : Element) : Reading Unit :=
  if e.isDefault then reader.readContents scope e.contents
  else do
    let _ ← scope.parseCustom reader.handlers e

theorem readScope_eq (ctx : Context) (outer : Defaults) (e : Element) :
    reader.readScope ctx outer e = (reader.admits ctx e >>= fun accepted => do
      if accepted then
        ctx.fire (.defaults (outer.enter e).resolve (ctx.source e))
        Reading.enter (.opened e)
        Reading.withFreshNames (reader.readInside ⟨ctx, outer.enter e⟩ e)
        Reading.enter (.closed e)) := by
  obtain ⟨tag, uri, attrs, contents, line⟩ := e
  rw [readScope]
  unfold admits
  by_cases hd : Element.isDefault ⟨tag, uri, attrs, contents, line⟩ = true
  · rw [if_pos hd, if_pos hd]
    rfl
  · rw [if_neg hd, if_neg hd]
    rfl

variable {reader} {ctx : Context} {e : Element}

theorem profilesAccepted_eq (ctx : Context) (e : Element) :
    reader.profilesAccepted ctx e =
      (match reader.judge ctx.environment e with
      | .error err => do
        ctx.error (.invalidProfiles (e.attr "profile")) e (some (.profiles err))
        pure false
      | .ok true => pure true
      | .ok false => do
        Reading.remark (.profilesRejected (e.attr "profile") ctx.resource.description)
        pure false) := by
  unfold profilesAccepted judge
  dsimp only
  split <;> rfl

theorem readScope_admitted {outer : Defaults} (h : reader.admits ctx e = pure true) :
    reader.readScope ctx outer e = (do
      ctx.fire (.defaults (outer.enter e).resolve (ctx.source e))
      Reading.enter (.opened e)
      Reading.withFreshNames (reader.readInside ⟨ctx, outer.enter e⟩ e)
      Reading.enter (.closed e)) := by
  rw [readScope_eq, h]
  rfl

theorem admits_accepted (hd : e.isDefault = true)
    (hj : reader.judge ctx.environment e = .ok true) : reader.admits ctx e = pure true := by
  unfold admits
  rw [if_pos hd, profilesAccepted_eq, hj]

theorem admits_foreign (hd : e.isDefault = false) : reader.admits ctx e = pure true := by
  unfold admits
  rw [hd]
  rfl

theorem readInside_default {scope : Scope} (hd : e.isDefault = true) :
    reader.readInside scope e = reader.readContents scope e.contents := if_pos hd

theorem readScope_rejected (outer : Defaults) (hd : e.isDefault = true)
    (hj : reader.judge ctx.environment e = .ok false) :
    reader.readScope ctx outer e =
      Reading.remark (.profilesRejected (e.attr "profile") ctx.resource.description) := by
  rw [readScope_eq]
  unfold admits
  rw [if_pos hd, profilesAccepted_eq, hj]
  rfl

theorem readScope_invalid (outer : Defaults) (hd : e.isDefault = true) {err : ProfileError}
    (hj : reader.judge ctx.environment e = .error err) :
    reader.readScope ctx outer e =
      ctx.error (.invalidProfiles (e.attr "profile")) e (some (.profiles err)) := by
  rw [readScope_eq]
  unfold admits
  rw [if_pos hd, profilesAccepted_eq, hj]
  exact (bind_assoc _ _ _).trans (bind_pure _)

theorem readElement_scope (defaults : Defaults) (hd : e.isDefault = true) (hk : e.kind = .beans) :
    reader.readElement ⟨ctx, defaults⟩ e = reader.readScope ctx defaults e := by
  unfold readElement
  rw [if_pos hd, hk]

end DocumentReader

end BeanCatalog
