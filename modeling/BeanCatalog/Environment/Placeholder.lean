import BeanCatalog.Environment.Pieces
import BeanCatalog.Table

/-!
Placeholders filled in from properties. A body is resolved before it is looked up, and the value
found is resolved in turn. A body met again while its own value is resolved is circular. Defaults
may spell ever longer bodies, so resolution takes a depth, and running out of it is an outcome.
-/

namespace BeanCatalog

inductive PlaceholderError where
  | circular (body text : String)
  | unresolved (key text : String)
  | tooDeep
  deriving DecidableEq, Repr

def PlaceholderError.message : PlaceholderError → String
  | .circular body text =>
    "Circular placeholder reference '" ++ body ++ "' in value \"" ++ text ++ "\""
  | .unresolved key text =>
    "Could not resolve placeholder '" ++ key ++ "' in value \"" ++ text ++ "\""
  | .tooDeep => "Placeholders are nested too deeply"

inductive PlaceholderMode where
  | required
  | lenient
  deriving DecidableEq, Repr

/-- A resolution notes the keys that it leaves in place, the latest first. -/
abbrev Resolution := ExceptT PlaceholderError (StateM (List String))

def splitDefault : List Char → List Char × Option (List Char)
  | [] => ([], none)
  | ':' :: cs => ([], some cs)
  | c :: cs => let (key, d) := splitDefault cs; (c :: key, d)

namespace PlaceholderMode

def missing (mode : PlaceholderMode) (key text piece : List Char) : Resolution (List Char) :=
  match mode with
  | .required => throw (.unresolved (String.ofList key) (String.ofList text))
  | .lenient => do
    modify (String.ofList key :: ·)
    pure piece

end PlaceholderMode

section

variable (properties : Table String) (mode : PlaceholderMode)

def resolveChars : (depth : Nat) → (visiting : List (List Char)) → List Char → Resolution (List Char)
  | 0, _, _ => throw .tooDeep
  | depth + 1, visiting, text => do
    let parts ← (Piece.ofChars text).mapM fun piece =>
      match piece with
      | .literal cs => pure cs
      | .placeholder inner => do
        let body ← resolveChars depth visiting inner
        if body ∈ visiting then
          throw (.circular (String.ofList body) (String.ofList text))
        let (key, fallback) := splitDefault body
        match (properties.get? (String.ofList key)).map String.toList <|> fallback with
        | none => mode.missing key text piece.chars
        | some value => resolveChars depth (body :: visiting) value
    pure parts.flatten

end

def defaultDepth : Nat := 400

def resolvePlaceholders (properties : Table String) (mode : PlaceholderMode) (text : String)
    (depth : Nat := defaultDepth) : Except PlaceholderError String × List String :=
  let (outcome, left) := (resolveChars properties mode depth [] text.toList).run.run []
  (outcome.map String.ofList, left.reverse)

end BeanCatalog
