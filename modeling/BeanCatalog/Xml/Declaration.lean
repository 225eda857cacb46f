import BeanCatalog.Xml.Scan

namespace BeanCatalog.Xml

inductive Encoding where
  | utf8
  | utf16
  | latin1
  | ascii
  deriving DecidableEq, Repr

def Encoding.ofName? (name : List Char) : Option Encoding :=
  match String.ofList (name.map Char.toUpper) with
  | "UTF-8" | "UTF8" => some .utf8
  | "UTF-16" | "UTF16" | "UTF-16LE" | "UTF-16BE" => some .utf16
  | "ISO-8859-1" | "ISO_8859-1" | "ISO8859-1" | "ISO-LATIN-1" | "LATIN1" | "L1" =>
    some .latin1
  | "US-ASCII" | "ASCII" => some .ascii
  | _ => none

structure Declaration where
  encoding : Option Encoding := none
  standalone : Bool := false

namespace Declaration

def isEncodingChar (c : Char) : Bool := c.isAlphanum || c == '.' || c == '_' || c == '-'

def value : Scan (List Char) := do
  let _ ← Scan.spaces
  Scan.expect "="
  let _ ← Scan.spaces
  Scan.literal

/-- Any version that begins with `1.` is read as the first one. -/
def isVersion : List Char → Bool
  | '1' :: '.' :: digits => digits.all Char.isDigit
  | _ => false

def isEncodingName : List Char → Bool
  | [] => false
  | c :: cs => c.isAlpha && cs.all isEncodingChar

def standalonePart (encoding : Option Encoding) (spaced : Bool) : Scan Declaration := do
  if ← Scan.accept "standalone" then
    Scan.require spaced
    let answer ← value
    Scan.require (answer == ['y', 'e', 's'] || answer == ['n', 'o'])
    let _ ← Scan.spaces
    Scan.expect "?>"
    pure ⟨encoding, answer == ['y', 'e', 's']⟩
  else
    Scan.expect "?>"
    pure ⟨encoding, false⟩

def scan : Scan Declaration := do
  Scan.space
  Scan.expect "version"
  Scan.require (isVersion (← value))
  let spaced ← Scan.spaces
  if ← Scan.accept "encoding" then
    Scan.require spaced
    let name ← value
    Scan.require (isEncodingName name)
    let encoding := Encoding.ofName? name
    Scan.require encoding.isSome
    let spaced ← Scan.spaces
    standalonePart encoding spaced
  else standalonePart none spaced

def begins (cs : List Char) : Bool :=
  match dropText? "<?xml".toList cs with
  | some (c :: _) => isSpace c
  | _ => false

def scan? : Scan Declaration := do
  if begins (← Scan.rest) then
    Scan.expect "<?xml"
    scan
  else pure {}

def encodingOf? (cs : List Char) : Option Encoding :=
  match scan?.run ⟨cs, 1⟩ with
  | .ok (d, _) => d.encoding
  | .error _ => none

end Declaration

end BeanCatalog.Xml
