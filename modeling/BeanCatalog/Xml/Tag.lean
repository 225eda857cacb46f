import BeanCatalog.Element
import BeanCatalog.Xml.Doctype
import BeanCatalog.Xml.Uri

namespace BeanCatalog.Xml

def xmlUri : List Char := "http://www.w3.org/XML/1998/namespace".toList

def xmlnsUri : List Char := "http://www.w3.org/2000/xmlns/".toList

/-- Prefixes and the namespaces they stand for, the nearest declaration first. The empty prefix is
the default, and an empty namespace is none. -/
abbrev Namespaces := List (List Char × List Char)

def declaredPrefix? (name : List Char) : Option (List Char) :=
  match Scan.splitName? name with
  | some (none, ['x', 'm', 'l', 'n', 's']) => some []
  | some (some ['x', 'm', 'l', 'n', 's'], l) => some l
  | _ => none

def mayDeclare (pre uri : List Char) : Bool :=
  if pre = ['x', 'm', 'l'] then uri == xmlUri
  else if pre = ['x', 'm', 'l', 'n', 's'] then false
  else if uri = [] then pre == []
  else uri != xmlUri && uri != xmlnsUri && Uri.isReference uri

structure RawAttribute where
  name : List Char
  value : List Char

namespace RawAttribute

def scan (d : Doctype) (element : List Char) (fuel : Nat) : Scan RawAttribute := do
  let name ← Scan.name
  let _ ← Scan.spaces
  Scan.expect "="
  let _ ← Scan.spaces
  let value ← d.quotedValue fuel
  let collapsed := match d.attributes.lookup (element, name) with
    | some (collapsed, _) => collapsed
    | none => false
  pure ⟨name, if collapsed then collapseBlanks value else value⟩

def check (a : RawAttribute) (earlier : List RawAttribute) : Scan Unit := do
  Scan.require (Scan.splitName? a.name).isSome
  match declaredPrefix? a.name with
  | none => pure ()
  | some pre =>
    Scan.require (mayDeclare pre a.value && !earlier.any (·.name == a.name))

def scanAll (d : Doctype) (element : List Char) : (fuel : Nat) → List RawAttribute →
    Scan (List RawAttribute)
  | 0, _ => Scan.fail
  | fuel + 1, read => do
    let spaced ← Scan.spaces
    match ← Scan.rest with
    | '>' :: _ | '/' :: '>' :: _ => pure read
    | _ => do
      Scan.require spaced
      let a ← scan d element fuel
      a.check read
      scanAll d element fuel (read ++ [a])

end RawAttribute

structure Tag where
  written : List Char
  name : List Char
  uri : Option (List Char)
  attributes : List (String × String)
  namespaces : Namespaces
  isEmpty : Bool

namespace Tag

def withDefaults (d : Doctype) (element : List Char) (given : List RawAttribute) :
    List RawAttribute :=
  given ++ d.attributes.filterMap fun ((e, name), _, value) =>
    match value with
    | some v => if e = element && !given.any (·.name == name) then some ⟨name, v⟩ else none
    | none => none

def lookup (ns : Namespaces) (pre : List Char) : Option (List Char) :=
  if pre = ['x', 'm', 'l'] then some xmlUri
  else
    match ns.lookup pre with
    | some [] | none => none
    | some uri => some uri

def attributeKey? (ns : Namespaces) (a : RawAttribute) : Option (Option (List Char) × List Char) :=
  match Scan.splitName? a.name with
  | none => none
  | some (none, l) => some (none, l)
  | some (some pre, l) => (lookup ns pre).map fun uri => (some uri, l)

def keyText : Option (List Char) × List Char → String
  | (none, l) => String.ofList l
  | (some uri, l) => String.ofList ('{' :: uri ++ '}' :: l)

def resolve (written : List Char) (given : List RawAttribute) (outer : Namespaces)
    (isEmpty : Bool) : Option Tag := do
  let declared := given.filterMap fun a => (declaredPrefix? a.name).map fun pre => (pre, a.value)
  let ns := declared ++ outer
  let plain := given.filter fun a => (declaredPrefix? a.name).isNone
  let keys ← plain.mapM (attributeKey? ns)
  if keys.eraseDups.length ≠ keys.length then none
  let (pre, l) ← Scan.splitName? written
  let uri ← match pre with
    | none => some (lookup ns [])
    | some pre => (lookup ns pre).map some
  let values := plain.map fun a => String.ofList a.value
  pure ⟨written, l, uri, (keys.map keyText).zip values, ns, isEmpty⟩

def scan (d : Doctype) (outer : Namespaces) (fuel : Nat) : Scan Tag := do
  let written ← Scan.name
  Scan.require (Scan.splitName? written).isSome
  let given ← RawAttribute.scanAll d written fuel []
  let isEmpty ← Scan.sees "/>"
  match resolve written (withDefaults d written given) outer isEmpty with
  | some tag => pure tag
  | none => Scan.fail

end Tag

end BeanCatalog.Xml
