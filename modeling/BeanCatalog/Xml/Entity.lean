import BeanCatalog.Xml.Scan

namespace BeanCatalog.Xml

inductive Entity where
  | internal (text : List Char)
  | external
  | unparsed
  deriving DecidableEq, Repr

inductive Reference where
  | char (c : Char)
  | entity (name : List Char)
  deriving DecidableEq, Repr

def predefined? (name : List Char) : Option Char :=
  match String.ofList name with
  | "lt" => some '<'
  | "gt" => some '>'
  | "amp" => some '&'
  | "apos" => some '\''
  | "quot" => some '"'
  | _ => none

def number? (base : Nat) (cs : List Char) : Option Nat :=
  if cs.isEmpty then none
  else
    cs.foldl (fun n c => do
      let n ← n
      let digit := if c.isDigit then c.toNat - 48 else
        if 'a' ≤ c ∧ c ≤ 'f' then c.toNat - 87 else
        if 'A' ≤ c ∧ c ≤ 'F' then c.toNat - 55 else base
      if digit < base then some (n * base + digit) else none) (some 0)

namespace Scan

def charReference : Scan Char := do
  let base := if ← accept "x" then 16 else 10
  let digits ← takeWhile fun c => c.isAlphanum
  expect ";"
  match number? base digits with
  | some n => do
    let c := Char.ofNat n
    require (isChar c)
    pure c
  | none => fail

def reference : Scan Reference := do
  if ← accept "#" then return .char (← charReference)
  let n ← name
  expect ";"
  match predefined? n with
  | some c => pure (.char c)
  | none => pure (.entity n)

end Scan

def cutReferences? : (fuel : Nat) → List Char → Option (List Reference)
  | _, [] => some []
  | 0, _ => none
  | fuel + 1, '&' :: cs =>
    match Scan.reference.run ⟨cs, 1⟩ with
    | .ok (r, next) => (cutReferences? fuel next.rest).map (r :: ·)
    | .error _ => none
  | fuel + 1, c :: cs => (cutReferences? fuel cs).map (.char c :: ·)

structure Doctype where
  entities : List (List Char × Entity) := []
  parameters : List (List Char × Option (List Char)) := []
  /-- Attributes by element and name: whether blanks in them are collapsed, and the default. -/
  attributes : List ((List Char × List Char) × Bool × Option (List Char)) := []
  /-- Whether some declarations may stand where they are not read. -/
  incomplete : Bool := false
  standalone : Bool := false

namespace Doctype

/-- Whether an entity may be left undeclared, for it may be declared elsewhere. -/
def lenient (d : Doctype) : Bool := d.incomplete && !d.standalone

/-- The text of an entity inside an attribute value, or nothing if it must not stand there. An
entity must not lead back to itself. -/
def expand (d : Doctype) : (depth : Nat) → (inside : List (List Char)) → List Char →
    Option (List Char)
  | 0, _, _ => none
  | depth + 1, inside, name =>
    match d.entities.lookup name with
    | none => if d.lenient then some [] else none
    | some (.internal text) =>
      if text.contains '<' || inside.contains name then none
      else do
        let pieces ← cutReferences? text.length text
        let parts ← pieces.mapM fun piece =>
          match piece with
          | .char c => some [c]
          | .entity n => d.expand depth (name :: inside) n
        pure parts.flatten
    | some _ => none

/-- An attribute value behind its opening quotation mark, `read` being its text so far, the latest
character first. Raw white space counts as a blank. -/
def attributeValue (d : Doctype) (quotation : Char) : (fuel : Nat) → (read : List Char) →
    Scan (List Char)
  | 0, _ => Scan.fail
  | fuel + 1, read => do
    match ← Scan.rest with
    | [] => Scan.fail
    | c :: _ =>
      if c = quotation then
        Scan.expect (String.singleton quotation)
        pure read.reverse
      else if c = '<' then Scan.fail
      else if c = '&' then
        Scan.expect "&"
        match ← Scan.reference with
        | .char c => d.attributeValue quotation fuel (c :: read)
        | .entity name =>
          match d.expand (d.entities.length + 1) [] name with
          | some text => d.attributeValue quotation fuel (text.reverse ++ read)
          | none => Scan.fail
      else
        let plain ← Scan.takeWhile fun c => c != quotation && c != '<' && c != '&'
        let plain := plain.map fun c => if isSpace c then ' ' else c
        d.attributeValue quotation fuel (plain.reverse ++ read)

def quotedValue (d : Doctype) (fuel : Nat) : Scan (List Char) := do
  let q ← Scan.quotationMark
  d.attributeValue q fuel []

end Doctype

def collapseBlanks (cs : List Char) : List Char :=
  [' '].intercalate ((cs.splitOn ' ').filter (· ≠ []))

end BeanCatalog.Xml
