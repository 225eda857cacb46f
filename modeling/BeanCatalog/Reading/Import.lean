import BeanCatalog.Reading.Context
import BeanCatalog.Resource.Location

namespace BeanCatalog

namespace Context

variable (ctx : Context)

def loadLocation (location : String) : StateM Session LoadOutcome :=
  match ctx.requireImporter with
  | .error f => pure (.error f, [])
  | .ok importer => importer.loadLocation location []

def loadResource (r : Resource) : StateM Session LoadOutcome :=
  match ctx.requireImporter with
  | .error f => pure (.error f, [])
  | .ok importer => do
    match ← (importer.loadResource r).run with
    | .error f => pure (.error f, [])
    | .ok count => pure (.ok count, [r])

/-- Loads what lies beside the document. Where nothing does, the location is taken relative to the
URL of the document. -/
def loadBeside (location : String) : StateM Session LoadOutcome :=
  let found : Except Failure (Resource ⊕ String) := do
    let r ← ctx.resource.sibling location
    if ← r.present ctx.workspace then pure (.inl r)
    else pure (.inr (applyRelativePath (← ctx.resource.url) location))
  match found with
  | .error f => pure (.error f, [])
  | .ok (.inl r) => ctx.loadResource r
  | .ok (.inr location) => ctx.loadLocation location

/-- Reports how an import ended. Failures to load, and those of the system beneath a relative
location, are problems of the element; any other failure goes on. -/
def concludeImport (e : Element) (kind : LocationKind) (location : String) :
    LoadOutcome → Reading Unit
  | (.ok count, loaded) => do
    Reading.remark (.imported count kind location)
    if loaded.isEmpty then ctx.warning (.nothingFound kind location) e
  | (.error f, _) =>
    if kind = .relative ∧ f.kind.isSystem then ctx.error .unresolvedBase e (some f)
    else if f.kind.isStore then ctx.error (.importFailed kind location) e (some f)
    else throw f

def importElement (e : Element) : Reading Unit := do
  let written := e.attr "resource"
  if Text.allBlank written then ctx.error .emptyLocation e
  else
    match ctx.environment.resolveRequired written with
    | .error err => throw (.placeholder err)
    | .ok location => do
      let kind : LocationKind := if Location.isAbsolute location then .absolute else .relative
      let outcome ← match kind with
        | .absolute => liftM (ctx.loadLocation location)
        | .relative => liftM (ctx.loadBeside location)
      ctx.concludeImport e kind location outcome
      ctx.fire (.imported location outcome.2 (ctx.source e))

end Context

end BeanCatalog
