import BeanCatalog.Reading.Bean
import BeanCatalog.Reading.Custom
import BeanCatalog.Reading.Import

/-!
Documents: scopes within scopes, and in each of them imports, aliases, beans and elements of other
namespaces. A problem with one element is reported, and reading goes on with its siblings.
-/

namespace BeanCatalog

structure DocumentReader where
  delimiters : String := Text.multiValueDelimiters
  handlers : Table Handler := []

namespace Context

variable (ctx : Context)

def aliasElement (e : Element) : Reading Unit := do
  let name := e.attr "name"
  let alt := e.attr "alias"
  if Text.allBlank name then ctx.error .emptyName e
  if Text.allBlank alt then ctx.error .emptyAlias e
  if !Text.allBlank name && !Text.allBlank alt then
    match ← Reading.register [.addAlias name alt] with
    | some refusal => ctx.error (.aliasRefused name alt) e (some (.refused refusal))
    | none => ctx.fire (.aliased name alt (ctx.source e))

end Context

namespace DocumentReader

variable (reader : DocumentReader)

def profilesAccepted (ctx : Context) (e : Element) : Reading Bool := do
  let spec := e.attr "profile"
  if Text.allBlank spec then pure true
  else
    let profiles := Text.tokenize spec reader.delimiters
    let decision := if profiles.isEmpty then .error .noNames else ctx.environment.accepts profiles
    match decision with
    | .error err => do
      ctx.error (.invalidProfiles spec) e (some (.profiles err))
      pure false
    | .ok true => pure true
    | .ok false => do
      Reading.remark (.profilesRejected spec ctx.resource.description)
      pure false

def beanElement (scope : Scope) (e : Element) : Reading Unit := do
  match ← scope.parseBean e with
  | none => pure ()
  | some holder => do
    let holder ← scope.decorate reader.handlers e holder
    match ← Reading.register holder.calls with
    | some refusal =>
      scope.context.error (.definitionRefused holder.name) e (some (.refused refusal))
    | none => scope.context.fire (.component holder (scope.context.source e))

mutual

/-- Reads a scope, unless its profiles reject it. A root of another namespace is a scope whose only
element is itself. -/
def readScope (ctx : Context) (outer : Defaults) : Element → Reading Unit
  | ⟨tag, uri, attrs, contents, line⟩ => do
    let e : Element := ⟨tag, uri, attrs, contents, line⟩
    let accepted ← if e.isDefault then reader.profilesAccepted ctx e else pure true
    if accepted then
      let scope : Scope := ⟨ctx, outer.enter e⟩
      ctx.fire (.defaults scope.defaults.resolve (ctx.source e))
      Reading.enter (.opened e)
      Reading.withFreshNames <|
        if e.isDefault then readContents scope contents
        else do
          let _ ← scope.parseCustom reader.handlers e
      Reading.enter (.closed e)

def readContents (scope : Scope) : List (Content Element) → Reading Unit
  | [] => pure ()
  | .text _ :: rest => readContents scope rest
  | .element e :: rest => do
    if e.isDefault then
      match e.kind with
      | .importing => scope.context.importElement e
      | .aliasing => scope.context.aliasElement e
      | .bean => reader.beanElement scope e
      | .beans => readScope scope.context scope.defaults e
      | .other => pure ()
    else
      let _ ← scope.parseCustom reader.handlers e
    readContents scope rest

end

def read (ctx : Context) (root : Element) : Reading Unit := reader.readScope ctx [] root

end DocumentReader

end BeanCatalog
