import BeanCatalog.Text.Tokens

namespace BeanCatalog

def pathNames (s : String) : List String :=
  ((Text.splitAny ['/'] s.toList).map String.ofList).filter fun name => name ≠ "" ∧ name ≠ "."

def descend (place : List String) (name : String) : List String :=
  if name = ".." then place.dropLast else place ++ [name]

/-- One step down from a place whose parents are unknown, so that climbing out of it is kept. -/
def descendOpen (place : List String) (name : String) : List String :=
  if name ≠ ".." then place ++ [name]
  else if place.isEmpty || place.getLast? == some ".." then place ++ [".."]
  else place.dropLast

/-- An absolute path without dots. A path that begins with exactly two slashes is kept apart from
one that begins with one. -/
structure AbsolutePath where
  doubleRoot : Bool
  names : List String
  deriving DecidableEq, Repr

namespace AbsolutePath

def startsDouble : List Char → Bool
  | '/' :: '/' :: '/' :: _ => false
  | '/' :: '/' :: _ => true
  | _ => false

def ofString (current : List String) (s : String) : AbsolutePath :=
  let start := if s.startsWith "/" then [] else current
  ⟨startsDouble s.toList, (pathNames s).foldl descend start⟩

def render (p : AbsolutePath) : String :=
  (if p.doubleRoot then "//" else "/") ++ "/".intercalate p.names

/-- The path that a relative one names beside `p`. Leading slashes do not count. -/
def sibling (p : AbsolutePath) (relative : String) : AbsolutePath :=
  ⟨p.doubleRoot, (pathNames relative).foldl descend p.names.dropLast⟩

end AbsolutePath

def relativeNames (s : String) : List String := (pathNames s).foldl descendOpen []

def renderRelative (names : List String) : String :=
  if names.isEmpty then "." else "/".intercalate names

def beforeLastSlash : List Char → Option (List Char)
  | [] => none
  | c :: cs =>
    match beforeLastSlash cs with
    | some front => some (c :: front)
    | none => if c = '/' then some [] else none

def applyRelativePath (path relative : String) : String :=
  match beforeLastSlash path.toList with
  | none => relative
  | some front =>
    if relative.startsWith "/" then String.ofList front ++ relative
    else String.ofList front ++ "/" ++ relative

end BeanCatalog
