import BeanCatalog.Defaults
import BeanCatalog.Registry.Call
import BeanCatalog.Resource.Basic
import BeanCatalog.Text.Quoted

/-!
The journal of a reading: registrations, events, problems, scopes opened and closed, loads begun and
ended, and remarks on what is done. Registrations are entered whether or not they are refused, so
that the journal tells the registry at each of its entries.
-/

namespace BeanCatalog

inductive Speaker where
  | placeholders
  | registry
  | beans
  | documents
  | loading
  | problems
  deriving DecidableEq, Repr

inductive RemarkLevel where
  | debug
  | info
  | warning
  | error
  deriving DecidableEq, Repr

inductive Remark where
  | placeholderLeft (key : String)
  | replaced (r : Replacement)
  | namedByAlias (name : String) (aliases : List String)
  | undecorated (uri : String)
  | profilesRejected (spec description : String)
  | imported (count : Nat) (kind : LocationKind) (location : String)
  | loading (description : String)
  | loaded (count : Nat) (location : String)
  | problem (severity : Severity) (text : String)
  deriving DecidableEq, Repr

namespace Remark

def speaker : Remark → Speaker
  | .placeholderLeft _ => .placeholders
  | .replaced _ => .registry
  | .namedByAlias .. | .undecorated _ => .beans
  | .profilesRejected .. | .imported .. => .documents
  | .loading _ | .loaded .. => .loading
  | .problem .. => .problems

def level : Remark → RemarkLevel
  | .replaced _ => .info
  | .problem .error _ => .error
  | .problem .warning _ => .warning
  | _ => .debug

def message : Remark → String
  | .placeholderLeft key => "Leaving unresolved placeholder '" ++ key ++ "' in place"
  | .replaced r => r.message
  | .namedByAlias name aliases =>
    "No id specified - using '" ++ name ++ "' as name and " ++ Text.quoteList aliases ++
      " as aliases"
  | .undecorated uri => "No namespace handler found for decorating with [" ++ uri ++ "]"
  | .profilesRejected spec description =>
    "Skipped definitions due to specified profiles [" ++ spec ++ "] not matching: " ++ description
  | .imported count kind location =>
    "Imported " ++ toString count ++ " definitions from " ++ kind.word ++ " location [" ++
      location ++ "]"
  | .loading description => "Loading XML definitions from " ++ description
  | .loaded count location =>
    "Loaded " ++ toString count ++ " definitions from location [" ++ location ++ "]"
  | .problem _ text => text

end Remark

inductive Event where
  | defaults (values : ScopeDefaults) (source : SourceLocation)
  | imported (location : String) (resources : List Resource) (source : SourceLocation)
  | aliased (name alt : String) (source : SourceLocation)
  | component (holder : Holder) (source : SourceLocation)

inductive JournalEntry where
  /-- Registrations about to be made, one after the other up to the first refusal. -/
  | registering (calls : List (RegistryCall Definition))
  | event (e : Event)
  | problem (severity : Severity) (p : Problem)
  /-- A scope whose children are about to be read. -/
  | opened (scope : Element)
  /-- A scope whose children have been read. -/
  | closed (scope : Element)
  /-- A resource about to be loaded. -/
  | began (r : Resource)
  /-- A resource whose loading has ended, by success or by failure. -/
  | ended (r : Resource) (completed : Bool)
  | remark (r : Remark)
  /-- A note of a handler or an importer: its topic and named details. -/
  | note (topic : String) (details : Table String)

def replay (r : Registry Definition) : List JournalEntry → Registry Definition
  | [] => r
  | .registering calls :: rest => replay (r.calls (fun _ _ => false) calls).registry rest
  | _ :: rest => replay r rest

/-- The resources whose loading has begun in a journal and not ended, the innermost first. -/
def stillLoading (begun : List Resource) : List JournalEntry → List Resource
  | [] => begun
  | .began r :: rest => stillLoading (r :: begun) rest
  | .ended _ _ :: rest => stillLoading begun.tail rest
  | _ :: rest => stillLoading begun rest

def problemsOf (severity : Severity) (journal : List JournalEntry) : List Problem :=
  journal.filterMap fun
    | .problem s p => if s = severity then some p else none
    | _ => none

end BeanCatalog
