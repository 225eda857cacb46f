import BeanCatalog.Files.Tree
import BeanCatalog.Text.Wildcard

/-!
Patterns on paths. The names between slashes are matched one by one; `**` alone stands for any
number of folders. A leading dot is only matched by a dot.
-/

namespace BeanCatalog.Glob

inductive Segment where
  | literal (name : String)
  | pattern (s : String)
  | anyDepth
  deriving DecidableEq, Repr

def Segment.ofString (s : String) : Segment :=
  if s = "**" then .anyDepth else if Text.hasWildcard s then .pattern s else .literal s

def isHidden (name : String) : Bool := name.startsWith "."

def join (path name : String) : String :=
  if path = "" ∨ path.endsWith "/" then path ++ name else path ++ "/" ++ name

/-- The front of a path without its trailing slashes, unless it holds nothing else. -/
def trimSlashes (cs : List Char) : List Char :=
  let front := (cs.reverse.dropWhile (· == '/')).reverse
  if front.isEmpty then cs else front

/-- The folder that a pattern starts in, and its segments from the first one with a wildcard on. A
slash at the end asks for a folder. -/
def ofString (s : String) : String × List Segment :=
  let cs := s.toList
  let literal := cs.takeWhile fun c => !(c == '*' || c == '?' || c == '[')
  let start := match beforeLastSlash literal with
    | none => []
    | some front => front ++ ['/']
  let rest := cs.drop start.length
  let names := (Text.splitAny ['/'] rest).filter (· ≠ []) |>.map String.ofList
  let names := if rest.getLast? = some '/' then names ++ [""] else names
  (String.ofList (trimSlashes start), names.map Segment.ofString)

variable (tree : FileTree) (current : List String)

def folder? (path : String) : Except FileError (Option (List String)) :=
  match tree.locate current path with
  | .ok (place, .folder) => .ok (some place)
  | .error .nulInPath => .error .nulInPath
  | _ => .ok none

/-- The paths that a segment adds below one path. All but the last segment ask for folders, and so do
an empty name and a dot. -/
def expand (last : Bool) (path : String) : Segment → Except FileError (List String)
  | .literal name =>
    let found := match tree.locate current (if name = "" then path else join path name) with
      | .ok (_, .folder) => true
      | .ok (_, .file _) => name ≠ "" ∧ name ≠ "."
      | .error _ => false
    .ok (if found then [join path name] else [])
  | .pattern s => do
    let place ← folder? tree current path
    let names := (place.map tree.children).getD []
    let names := names.filter fun name =>
      (last || (place.map fun p => tree.isFolder (p ++ [name])).getD false) &&
        (isHidden s || !isHidden name) && Text.matchesPattern s name
    pure (names.map (join path))
  | .anyDepth => do
    let place ← folder? tree current path
    match place with
    | none => pure []
    | some p =>
      let deep := (tree.below p).filter fun names =>
        (last || tree.isFolder (p ++ names)) && !names.any isHidden
      pure (join path "" :: deep.map fun names => join path ("/".intercalate names))

def expandAll : List String → List Segment → Except FileError (List String)
  | paths, [] => .ok paths
  | paths, seg :: segs => do
    let next ← paths.mapM fun path => expand tree current segs.isEmpty path seg
    expandAll next.flatten segs

def files (pattern : String) : Except FileError (List String) := do
  let (start, segs) := ofString pattern
  let paths ← expandAll tree current [start] segs
  let isFile := fun (path : String) =>
    match tree.locate current path with
    | .ok (_, .file _) => true
    | _ => false
  pure ((paths.filter isFile).mergeSort fun a b => decide (a ≤ b))

end BeanCatalog.Glob
