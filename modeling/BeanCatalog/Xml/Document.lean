import BeanCatalog.Xml.Source
import BeanCatalog.Xml.Tag

/-!
Documents: the tree of elements in the text. Comments and processing instructions leave no trace.
An entity referred to between the tags is left out, and it parts the text around it.
-/

namespace BeanCatalog.Xml

structure Inside where
  contents : List (Content Element) := []
  text : List Char := []

namespace Inside

def add (i : Inside) (cs : List Char) : Inside := { i with text := cs.reverse ++ i.text }

def part (i : Inside) : Inside :=
  if i.text = [] then i
  else { contents := .text (String.ofList i.text.reverse) :: i.contents }

def element (i : Inside) (e : Element) : Inside :=
  { i.part with contents := .element e :: i.part.contents }

def finish (i : Inside) : List (Content Element) := i.part.contents.reverse

end Inside

def isPlainText (c : Char) : Bool := c != '<' && c != '&' && c != ']'

mutual

def scanElement (d : Doctype) (expanding : List (List Char)) : (fuel : Nat) → Namespaces →
    Scan Element
  | 0, _ => Scan.fail
  | fuel + 1, outer => do
    let tag ← Tag.scan d outer fuel
    let line := (← get).line
    let contents ← if tag.isEmpty then do
        Scan.expect "/>"
        pure []
      else do
        Scan.expect ">"
        let inside ← scanContents d expanding fuel tag.namespaces {}
        Scan.expect "</"
        let closing ← Scan.name
        let _ ← Scan.spaces
        Scan.expect ">"
        Scan.require (closing == tag.written)
        pure inside.finish
    pure ⟨String.ofList tag.name, tag.uri.map String.ofList, Table.ofList tag.attributes, contents,
      some line⟩

def scanContents (d : Doctype) (expanding : List (List Char)) : (fuel : Nat) → Namespaces →
    Inside → Scan Inside
  | 0, _, _ => Scan.fail
  | fuel + 1, ns, inside => do
    match ← Scan.rest with
    | [] | '<' :: '/' :: _ => pure inside
    | '<' :: _ => do
      if ← Scan.accept "<!--" then
        Scan.comment
        scanContents d expanding fuel ns inside
      else if ← Scan.accept "<![CDATA[" then
        let text ← Scan.before "]]>"
        scanContents d expanding fuel ns (inside.add (text.map meant))
      else if ← Scan.accept "<?" then
        Scan.instruction
        scanContents d expanding fuel ns inside
      else
        Scan.expect "<"
        let e ← scanElement d expanding fuel ns
        scanContents d expanding fuel ns (inside.element e)
    | '&' :: _ => do
      Scan.expect "&"
      match ← Scan.reference with
      | .char c => scanContents d expanding fuel ns (inside.add [c])
      | .entity name => do
        match d.entities.lookup name with
        | some (.internal text) => do
          Scan.require (!expanding.contains name)
          match (scanContents d (name :: expanding) fuel ns {}).run ⟨text, 1⟩ with
          | .ok (_, ⟨[], _⟩) => pure ()
          | .ok (_, ⟨_, line⟩) | .error line => throw line
        | some .external => pure ()
        | some .unparsed => Scan.fail
        | none => Scan.require d.lenient
        scanContents d expanding fuel ns inside.part
    | ']' :: _ => do
      Scan.require (!(← Scan.sees "]]>"))
      Scan.expect "]"
      scanContents d expanding fuel ns (inside.add [']'])
    | _ => do
      let text ← Scan.takeWhile isPlainText
      scanContents d expanding fuel ns (inside.add (text.map meant))

end

def scanMisc : (fuel : Nat) → Scan Unit
  | 0 => Scan.fail
  | fuel + 1 => do
    let _ ← Scan.spaces
    if ← Scan.accept "<!--" then
      Scan.comment
      scanMisc fuel
    else if ← Scan.accept "<?" then
      Scan.instruction
      scanMisc fuel
    else pure ()

def scanDocument (source : Source) : Scan Element := do
  let fuel := source.text.length + 1
  let declaration ← Declaration.scan?
  scanMisc fuel
  let doctype ← if ← Scan.accept "<!DOCTYPE" then Doctype.scan declaration.standalone else
    pure { standalone := declaration.standalone }
  scanMisc fuel
  Scan.expect "<"
  let root ← scanElement doctype [] (fuel * 2) []
  scanMisc fuel
  Scan.require (← Scan.rest).isEmpty
  Scan.require source.sound
  pure root

/-- The root of a document, or the line on which the first fault is noticed, without a word on it. -/
def parse (bytes : List UInt8) : Except SyntaxError Element :=
  let source := Source.ofBytes bytes
  match (scanDocument source).run ⟨source.text, 1⟩ with
  | .ok (root, _) => .ok root
  | .error line => .error ⟨line, ""⟩

end BeanCatalog.Xml
