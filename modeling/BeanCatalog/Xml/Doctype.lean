import BeanCatalog.Xml.Entity

/-!
The document type declaration and what stands inside its brackets. Nothing outside the document is
read.
-/

namespace BeanCatalog.Xml

namespace Scan

def comment : Scan Unit := do
  let _ ← before "--"
  expect ">"

def instruction : Scan Unit := do
  let target ← plainName
  require (target.map Char.toLower != ['x', 'm', 'l'])
  if ← accept "?>" then return
  space
  let _ ← before "?>"

def publicLiteral : Scan Unit := do
  let q ← quotationMark
  let _ ← takeWhile fun c => isPublic c && c != q
  expect (String.singleton q)

/-- The identifier of something outside the document, if one comes next. A notation may leave the
place of a public one out. -/
def externalId? (needsPlace : Bool) : Scan Bool := do
  if ← accept "SYSTEM" then
    space
    let _ ← literal
    return true
  if ← accept "PUBLIC" then
    space
    publicLiteral
    let spaced ← spaces
    if needsPlace || (← sees "\"") || (← sees "'") then
      require spaced
      let _ ← literal
    return true
  return false

def repetition : Scan Unit := do
  let _ ← takeWhile fun c => c == '?' || c == '*' || c == '+'

def contentGroup : (fuel : Nat) → Scan Unit
  | 0 => fail
  | fuel + 1 => do
    let _ ← spaces
    if ← accept "(" then contentGroup fuel
    else if ← accept "#PCDATA" then pure ()
    else
      let _ ← name
      repetition
    let _ ← spaces
    if ← accept ")" then repetition
    else
      require ((← accept ",") || (← accept "|"))
      contentGroup fuel

def elementDeclaration : Scan Unit := do
  space
  let _ ← name
  space
  if !((← accept "EMPTY") || (← accept "ANY")) then
    expect "("
    contentGroup ((← rest).length)
  let _ ← spaces
  expect ">"

def notationDeclaration : Scan Unit := do
  space
  let _ ← plainName
  space
  require (← externalId? false)
  let _ ← spaces
  expect ">"

def choices : (fuel : Nat) → Scan Unit
  | 0 => fail
  | fuel + 1 => do
    let _ ← spaces
    let n ← takeWhile isNameChar
    require (!n.isEmpty)
    let _ ← spaces
    if ← accept ")" then pure ()
    else
      expect "|"
      choices fuel

def tokenTypes : List String :=
  ["IDREFS", "IDREF", "ID", "ENTITIES", "ENTITY", "NMTOKENS", "NMTOKEN"]

def attributeType : Scan Bool := do
  if ← accept "CDATA" then return false
  for t in tokenTypes do
    if ← accept t then return true
  if ← accept "NOTATION" then space
  expect "("
  choices ((← rest).length)
  return true

end Scan

/-- The value of an entity as declared: characters given by number are filled in, other references
are kept. -/
def entityText? : (fuel : Nat) → List Char → Option (List Char)
  | _, [] => some []
  | 0, _ => none
  | _ + 1, '%' :: _ => none
  | fuel + 1, '&' :: '#' :: cs =>
    match Scan.charReference.run ⟨cs, 1⟩ with
    | .ok (c, next) => (entityText? fuel next.rest).map (c :: ·)
    | .error _ => none
  | fuel + 1, '&' :: cs =>
    match Scan.name.run ⟨cs, 1⟩ with
    | .ok (n, ⟨';' :: rest, _⟩) => (entityText? fuel rest).map ('&' :: n ++ ';' :: ·)
    | _ => none
  | fuel + 1, c :: cs => (entityText? fuel cs).map (meant c :: ·)

namespace Doctype

/-- The first declaration of an entity counts. -/
def declare {α : Type} (table : List (List Char × α)) (name : List Char) (a : α) :
    List (List Char × α) :=
  if (table.lookup name).isSome then table else table ++ [(name, a)]

def entityValue : Scan (List Char) := do
  let raw ← Scan.literal
  match entityText? raw.length raw with
  | some text => pure text
  | none => Scan.fail

def entityDeclaration (d : Doctype) : Scan Doctype := do
  Scan.space
  let parameter ← Scan.accept "%"
  if parameter then Scan.space
  let name ← Scan.plainName
  Scan.space
  let outside ← Scan.externalId? true
  let text ← if outside then pure none else some <$> entityValue
  let spaced ← Scan.spaces
  let unparsed ← if outside && !parameter then Scan.accept "NDATA" else pure false
  if unparsed then
    Scan.require spaced
    Scan.space
    let _ ← Scan.plainName
    let _ ← Scan.spaces
  Scan.expect ">"
  if parameter then pure { d with parameters := declare d.parameters name text }
  else
    let entity := match text with
      | some t => Entity.internal t
      | none => if unparsed then .unparsed else .external
    pure { d with entities := declare d.entities name entity }

def attributeDefault (d : Doctype) : Scan (Option (List Char)) := do
  if (← Scan.accept "#REQUIRED") || (← Scan.accept "#IMPLIED") then return none
  if ← Scan.accept "#FIXED" then Scan.space
  some <$> d.quotedValue (← Scan.rest).length

def attributeDeclarations (element : List Char) : (fuel : Nat) → Doctype → Scan Doctype
  | 0, _ => Scan.fail
  | fuel + 1, d => do
    let spaced ← Scan.spaces
    if ← Scan.accept ">" then return d
    Scan.require spaced
    let name ← Scan.name
    Scan.space
    let collapsed ← Scan.attributeType
    Scan.space
    let value ← d.attributeDefault
    let value := if collapsed then value.map collapseBlanks else value
    let known := d.attributes.any fun (key, _) => key == (element, name)
    let d := if known then d
      else { d with attributes := d.attributes ++ [((element, name), collapsed, value)] }
    attributeDeclarations element fuel d

def attributeListDeclaration (d : Doctype) : Scan Doctype := do
  Scan.space
  let element ← Scan.name
  attributeDeclarations element ((← Scan.rest).length + 1) d

def declaration (d : Doctype) : Scan Doctype := do
  if ← Scan.accept "<!--" then
    Scan.comment
    return d
  if ← Scan.accept "<?" then
    Scan.instruction
    return d
  if ← Scan.accept "<!ELEMENT" then
    Scan.elementDeclaration
    return d
  if ← Scan.accept "<!NOTATION" then
    Scan.notationDeclaration
    return d
  if ← Scan.accept "<!ENTITY" then return ← d.entityDeclaration
  if ← Scan.accept "<!ATTLIST" then return ← d.attributeListDeclaration
  Scan.fail

/-- Declarations up to a closing bracket or the end of the text. A parameter entity stands for the
declarations in its text. -/
def declarations : (fuel : Nat) → Doctype → Scan Doctype
  | 0, _ => Scan.fail
  | fuel + 1, d => do
    let _ ← Scan.spaces
    match ← Scan.rest with
    | [] | ']' :: _ => pure d
    | '%' :: _ => do
      Scan.expect "%"
      let name ← Scan.name
      Scan.expect ";"
      let d := { d with incomplete := true }
      match d.parameters.lookup name with
      | some (some text) =>
        match (declarations fuel d).run ⟨text, 1⟩ with
        | .ok (d, ⟨[], _⟩) => declarations fuel d
        | _ => throw 1
      | some none => declarations fuel d
      | none => do
        Scan.require (!d.standalone)
        declarations fuel d
    | _ => do
      let d ← d.declaration
      declarations fuel d

def scan (standalone : Bool) : Scan Doctype := do
  let _ ← Scan.spaces
  let _ ← Scan.name
  let _ ← Scan.spaces
  let outside ← Scan.externalId? true
  let _ ← Scan.spaces
  let d : Doctype := { incomplete := outside, standalone := standalone }
  if ← Scan.accept "[" then
    let d ← declarations ((← Scan.rest).length + 1) d
    Scan.expect "]"
    let _ ← Scan.spaces
    Scan.expect ">"
    pure d
  else
    Scan.expect ">"
    pure d

end Doctype

end BeanCatalog.Xml
