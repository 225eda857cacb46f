import BeanCatalog.Files.Workspace
import BeanCatalog.Report.Failure

namespace BeanCatalog

structure Stub where
  path : String
  existing : List String
  addressable : Bool
  deriving DecidableEq, Repr

inductive Resource where
  | file (path : AbsolutePath)
  | bytes (data : List UInt8) (label : Option String)
  | package (name : String) (path : List String)
  | stub (s : Stub)
  /-- A resource of which nothing is known. -/
  | unknown
  deriving DecidableEq, Repr

def packagePrefix : String := "package:"

namespace Resource

def ofFile (w : Workspace) (path : String) : Resource := .file (.ofString w.current path)

def ofPackage (name path : String) : Resource := .package name (relativeNames path)

def description : Resource → String
  | .file path => "file [" ++ path.render ++ "]"
  | .bytes _ label =>
    let label := match label with
      | none | some "" => "resource loaded from byte array"
      | some s => s
    "Byte array resource [" ++ label ++ "]"
  | .package name path => "package resource [" ++ name ++ "/" ++ renderRelative path ++ "]"
  | .stub s => "stub [" ++ s.path ++ "]"
  | .unknown => "resource"

/-- Whether two resources are one: files by path, bytes by their data, unknown ones never. -/
def same : Resource → Resource → Bool
  | .file p, .file q => p == q
  | .bytes d _, .bytes e _ => d == e
  | .package n p, .package m q => n == m && p == q
  | .stub s, .stub t => s.path == t.path
  | _, _ => false

def present (w : Workspace) : Resource → Except Failure Bool
  | .file path => (w.tree.isFileAt [] path.names).mapError .file
  | .bytes .. => .ok true
  | .package name path =>
    match w.packageFolder? name with
    | none => .ok false
    | some folder => (w.tree.isFileAt folder path).mapError .file
  | .stub s => .ok (s.existing.contains s.path)
  | .unknown => .error .unsupported

def read (w : Workspace) : Resource → Except Failure (List UInt8)
  | .file path => (w.tree.readAt [] path.names).mapError .file
  | .bytes data _ => .ok data
  | .package name path =>
    match w.packageFolder? name with
    | none => .error (.packageUnavailable (Resource.package name path).description)
    | some folder =>
      match w.tree.readAt folder path with
      | .error .nulInPath =>
        .error (.packageUnavailable (Resource.package name path).description)
      | outcome => outcome.mapError .file
  | .stub s => .error (.stubContents s.path)
  | .unknown => .error .unsupported

def url : Resource → Except Failure String
  | .file path => .ok ("file://" ++ Percent.encode path.render)
  | .package name path => .ok (packagePrefix ++ name ++ "/" ++ renderRelative path)
  | .stub s =>
    if s.addressable then .ok ("stub:" ++ s.path)
    else .error (.notAddressable (Resource.stub s).description)
  | r => .error (.notAddressable r.description)

def sibling (r : Resource) (relative : String) : Except Failure Resource :=
  match r with
  | .file path => .ok (.file (path.sibling relative))
  | .package name path =>
    .ok (.ofPackage name (applyRelativePath (renderRelative path) relative))
  | .stub s => .ok (.stub { s with path := applyRelativePath s.path relative })
  | r => .error (.noRelative r.description)

end Resource

end BeanCatalog
