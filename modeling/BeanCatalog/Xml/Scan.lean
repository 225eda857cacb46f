import BeanCatalog.Xml.Characters

namespace BeanCatalog.Xml

structure Cursor where
  rest : List Char
  line : Nat := 1
  deriving DecidableEq, Repr

abbrev Scan := StateT Cursor (Except Nat)

def dropText? : (t s : List Char) → Option (List Char)
  | [], s => some s
  | _ :: _, [] => none
  | c :: t, d :: s => if c = d then dropText? t s else none

def breakAt? (stop : List Char) (read : List Char) : List Char → Option (List Char × List Char)
  | [] => none
  | c :: cs =>
    match dropText? stop (c :: cs) with
    | some rest => some (read.reverse, rest)
    | none => breakAt? stop (c :: read) cs

namespace Cursor

def past (c : Cursor) (front rest : List Char) : Cursor := ⟨rest, c.line + front.count '\n'⟩

def atEnd (c : Cursor) : Cursor := c.past c.rest []

end Cursor

namespace Scan

def fail {α : Type} : Scan α := fun c => .error c.line

def require (condition : Bool) : Scan Unit := if condition then pure () else fail

def rest : Scan (List Char) := fun c => .ok (c.rest, c)

def accept (t : String) : Scan Bool := fun c =>
  match dropText? t.toList c.rest with
  | some rest => .ok (true, c.past t.toList rest)
  | none => .ok (false, c)

def expect (t : String) : Scan Unit := do require (← accept t)

def sees (t : String) : Scan Bool := fun c => .ok ((dropText? t.toList c.rest).isSome, c)

def takeWhile (p : Char → Bool) : Scan (List Char) := fun c =>
  let front := c.rest.takeWhile p
  .ok (front, c.past front (c.rest.drop front.length))

def spaces : Scan Bool := do
  let front ← takeWhile isSpace
  pure (!front.isEmpty)

def space : Scan Unit := do require (← spaces)

def before (stop : String) : Scan (List Char) := fun c =>
  match breakAt? stop.toList [] c.rest with
  | some (front, rest) => .ok (front, c.past (front ++ stop.toList) rest)
  | none => .error c.atEnd.line

def name : Scan (List Char) := do
  match ← rest with
  | c :: _ => do
    require (isNameStart c)
    takeWhile isNameChar
  | [] => fail

def plainName : Scan (List Char) := do
  let n ← name
  require (!n.contains ':')
  pure n

def splitName? (n : List Char) : Option (Option (List Char) × List Char) :=
  let front := n.takeWhile (· != ':')
  match n.drop front.length with
  | [] => some (none, n)
  | _ :: l =>
    if front.isEmpty || l.contains ':' || !(l.head?.map isNameStart).getD false then none
    else some (some front, l)

def quotationMark : Scan Char := do
  if ← accept "\"" then pure '"'
  else
    expect "'"
    pure '\''

def literal : Scan (List Char) := do
  let q ← quotationMark
  before (String.singleton q)

end Scan

end BeanCatalog.Xml
