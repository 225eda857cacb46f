import BeanCatalog.Reading.Session

namespace BeanCatalog

inductive Reporter where
  /-- Keeps every problem and goes on. -/
  | collecting
  /-- Goes on after warnings only. -/
  | failFast
  /-- Can take no problem at all. -/
  | unable
  deriving DecidableEq, Repr

/-- What loading a location came to: the number of definitions it added, or the failure that ended
it, and the resources loaded to the end. -/
abbrev LoadOutcome := Except Failure Nat × List Resource

/-- Loads what an import names. A location may name several resources: the list given is extended
by those loaded that it lacks, also when a later one fails. -/
structure Importer where
  loadLocation : String → List Resource → StateM Session LoadOutcome
  loadResource : Resource → Reading Nat

structure Context where
  workspace : Workspace
  resource : Resource
  environment : Environment
  reporter : Reporter
  listening : Bool
  importer : Option Importer

def Reporter.take (reporter : Reporter) (severity : Severity) (p : Problem) : Reading Unit := do
  Reading.enter (.problem severity p)
  match reporter, severity with
  | .collecting, _ | .failFast, .warning => Reading.remark (.problem severity p.text)
  | .failFast, .error => throw (.reported p)
  | .unable, _ => throw .unsupported

namespace Context

def source (ctx : Context) (e : Element) : SourceLocation :=
  ⟨some ctx.resource.description, e.line⟩

def report (ctx : Context) (severity : Severity) (fault : Fault) (element : Option Element)
    (cause : Option Failure) : Reading Unit :=
  ctx.reporter.take severity ⟨fault, element, cause, some ctx.resource.description⟩

def error (ctx : Context) (fault : Fault) (e : Element) (cause : Option Failure := none) :
    Reading Unit :=
  ctx.report .error fault (some e) cause

def warning (ctx : Context) (fault : Fault) (e : Element) : Reading Unit :=
  ctx.report .warning fault (some e) none

def fire (ctx : Context) (event : Event) : Reading Unit :=
  if ctx.listening then Reading.enter (.event event) else pure ()

def requireImporter (ctx : Context) : Except Failure Importer :=
  match ctx.importer with
  | some importer => .ok importer
  | none => .error (.noReader ctx.resource.description)

end Context

structure Scope where
  context : Context
  defaults : Defaults

/-- The keeper of another namespace: it reads elements of its own, and it enriches a bean that
carries an attribute or a child of the namespace. The attribute is named where there is one. -/
structure Handler where
  parse : Scope → Element → Reading (Option Definition)
  decorate : Scope → Element → Holder → Option String → Reading Holder

namespace Handler

def refuseElement (name : String) (scope : Scope) (e : Element) : Reading (Option Definition) := do
  scope.context.error (.unsupportedElement name e.tag) e
  pure none

def plain (name : String) : Handler := ⟨refuseElement name, fun _ _ holder _ => pure holder⟩

end Handler

end BeanCatalog
