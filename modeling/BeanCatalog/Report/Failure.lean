import BeanCatalog.Element
import BeanCatalog.Environment.Basic
import BeanCatalog.Files.Tree
import BeanCatalog.Registry.Basic
import BeanCatalog.Report.Fault
import BeanCatalog.Url.Basic

/-!
Problems, which reading reports and may go on after, and failures, which end a step. Each is the
other's companion: a failure may be the cause of a problem, and a reported problem may end the
reading.
-/

namespace BeanCatalog

structure SourceLocation where
  resource : Option String
  line : Option Int
  deriving DecidableEq, Repr

def SourceLocation.render (s : SourceLocation) : String :=
  let resource := s.resource.getD "None"
  match s.line with
  | none => resource
  | some line => resource ++ ", line " ++ toString line

inductive Severity where
  | error
  | warning
  deriving DecidableEq, Repr

structure ProblemOf (φ : Type) where
  fault : Fault
  element : Option Element
  cause : Option φ
  resource : Option String

inductive FailureKind where
  | general
  | store
  | override
  | aliasing
  | reported
  | placeholder
  | readerState
  | system
  | fileMissing
  | isFolder
  | notFolder
  | value
  | unsupported
  | exhausted
  deriving DecidableEq, Repr

inductive Failure where
  | refused (refusal : Refusal)
  | malformed (error : SyntaxError) (description : String)
  | absent (description : String)
  | unreadable (description : String)
  | cyclic (description : String)
  | packageLocation (location : String)
  | reported (problem : ProblemOf Failure)
  | placeholder (error : PlaceholderError)
  | noReader (description : String)
  | profiles (error : ProfileError)
  | url (error : UrlError)
  | file (error : FileError)
  | packageUnavailable (description : String)
  | notAddressable (description : String)
  | noRelative (description : String)
  | stubContents (path : String)
  /-- Asked of a resource or a reporter that cannot answer at all. -/
  | unsupported
  /-- Documents import one another more deeply than they are followed. -/
  | exhausted
  /-- A failure of a handler or an importer, in its own words. -/
  | raised (kind : FailureKind) (message : String)

abbrev Problem := ProblemOf Failure

def ProblemOf.text {φ : Type} (p : ProblemOf φ) : String :=
  let resource := match p.resource with
    | none | some "" => ""
    | some r => "\nOffending resource: " ++ r
  let line := match p.element.bind (·.line) with
    | none => ""
    | some n => " (line " ++ toString n ++ ")"
  "Configuration problem: " ++ p.fault.message ++ resource ++ line

namespace FailureKind

def isStore : FailureKind → Bool
  | .store | .override | .aliasing | .reported => true
  | _ => false

def isSystem : FailureKind → Bool
  | .system | .fileMissing | .isFolder | .notFolder => true
  | _ => false

def ofRefusal : Refusal → FailureKind
  | .emptyName => .store
  | .nameTaken _ => .override
  | .emptyAlias | .aliasTaken .. | .aliasCycle .. => .aliasing

def ofFileError : FileError → FailureKind
  | .missing => .fileMissing
  | .isFolder => .isFolder
  | .notFolder => .notFolder
  | .nameTooLong => .system
  | .nulInPath => .value

end FailureKind

namespace Failure

def kind : Failure → FailureKind
  | .refused r => .ofRefusal r
  | .malformed .. | .absent _ | .unreadable _ | .cyclic _ | .packageLocation _ => .store
  | .reported _ => .reported
  | .placeholder .tooDeep => .exhausted
  | .placeholder _ => .placeholder
  | .noReader _ => .readerState
  | .profiles _ | .url _ => .value
  | .file e => .ofFileError e
  | .packageUnavailable _ => .fileMissing
  | .notAddressable _ | .noRelative _ | .stubContents _ => .system
  | .unsupported => .unsupported
  | .exhausted => .exhausted
  | .raised kind _ => kind

def message : Failure → String
  | .refused r => r.message
  | .malformed error description =>
    "Line " ++ toString error.line ++ " in XML document from " ++ description ++ " is invalid: " ++
      error.message
  | .absent description => description ++ " does not exist"
  | .unreadable description => "Could not read XML document from " ++ description
  | .cyclic description =>
    "Detected cyclic loading of " ++ description ++ " - check your import definitions"
  | .packageLocation location =>
    "Package location [" ++ location ++ "] must have the form package:<package>/<path>"
  | .reported problem => problem.text
  | .placeholder e => e.message
  | .noReader description => "No definition reader available for " ++ description
  | .profiles e => e.message
  | .url e => e.message
  | .file e => e.message
  | .packageUnavailable description => description ++ " cannot be opened"
  | .notAddressable description => description ++ " cannot be resolved to URL"
  | .noRelative description => "Cannot create a relative resource for " ++ description
  | .stubContents path => "cannot read " ++ path
  | .unsupported => ""
  | .exhausted => "Documents are nested too deeply"
  | .raised _ message => message

end Failure

end BeanCatalog
