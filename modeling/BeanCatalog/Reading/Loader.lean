import BeanCatalog.Reading.Document

/-!
Loading: documents are found by location, read, and their imports followed. A resource that is
being loaded is not loaded again inside itself. Locations inside packages can be spelt in ever new
ways, so loading takes a depth, and running out of it is a failure of its own.
-/

namespace BeanCatalog

structure Loader where
  workspace : Workspace
  parse : List UInt8 → Except SyntaxError Element
  environment : Environment
  reporter : Reporter
  listening : Bool
  documents : DocumentReader

def Importer.exhausted : Importer :=
  ⟨fun _ loaded => pure (.error .exhausted, loaded), fun _ => throw .exhausted⟩

namespace Loader

variable (l : Loader)

def context (importer : Importer) (r : Resource) : Context :=
  ⟨l.workspace, r, l.environment, l.reporter, l.listening, some importer⟩

def registerDocument (importer : Importer) (root : Element) (r : Resource) : Reading Nat := do
  let before := (← get).registry.size
  l.documents.read (l.context importer r) root
  pure ((← get).registry.size - before)

def readResource (importer : Importer) (r : Resource) : Reading Nat := do
  match r.read l.workspace with
  | .error f => throw (if f.kind.isSystem then .unreadable r.description else f)
  | .ok bytes =>
    match l.parse bytes with
    | .error e => throw (.malformed e r.description)
    | .ok root => l.registerDocument importer root r

/-- Loads one resource, which counts as under loading until this ends. -/
def loadResource (importer : Importer) (r : Resource) : Reading Nat := do
  if (← get).loading.any (Resource.same r) then throw (.cyclic r.description)
  match r.present l.workspace with
  | .error f => throw f
  | .ok false => throw (.absent r.description)
  | .ok true => do
    Reading.remark (.loading r.description)
    Reading.whileLoading r (l.readResource importer r)

def loadAll (importer : Importer) (count : Nat) (loaded : List Resource) :
    List Resource → StateM Session LoadOutcome
  | [] => pure (.ok count, loaded)
  | r :: rest => do
    match ← (l.loadResource importer r).run with
    | .error f => pure (.error f, loaded)
    | .ok n =>
      loadAll importer (count + n)
        (if loaded.any (Resource.same r) then loaded else loaded ++ [r]) rest

def loadLocation (importer : Importer) (location : String) (loaded : List Resource) :
    StateM Session LoadOutcome := do
  match Location.resources l.workspace location with
  | .error f => pure (.error f, loaded)
  | .ok resources => do
    let (outcome, loaded) ← l.loadAll importer 0 loaded resources
    match outcome with
    | .error f => pure (.error f, loaded)
    | .ok count => do
      let _ ← (Reading.remark (.loaded count location)).run
      pure (.ok count, loaded)

def importer : (depth : Nat) → Importer
  | 0 => .exhausted
  | depth + 1 => ⟨l.loadLocation (importer depth), l.loadResource (importer depth)⟩

def defaultDepth : Nat := 200

def loadEach (depth : Nat) : List String → Reading Unit
  | [] => pure ()
  | location :: rest => do
    let (outcome, _) ← liftM ((l.importer depth).loadLocation location [])
    match outcome with
    | .error f => throw f
    | .ok _ => loadEach depth rest

end Loader

/-- Loads locations into a fresh registry. Without a list of profiles the properties name them. -/
def loadRegistry (workspace : Workspace) (parse : List UInt8 → Except SyntaxError Element)
    (profiles : Option (List String))
    (properties : Table String) (failFast : Bool) (locations : List String)
    (depth : Nat := Loader.defaultDepth) : Except Failure Unit × Session :=
  let loader : Loader :=
    { workspace := workspace
      parse := parse
      environment := .create profiles Environment.standardDefaults properties
      reporter := if failFast then .failFast else .collecting
      listening := true
      documents := {} }
  (loader.loadEach depth locations).run.run {}

end BeanCatalog
