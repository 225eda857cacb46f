import BeanCatalog.Files.Path

/-!
A finite tree of files, given by the paths of its files. A folder exists when something lies in it
or when it is listed.
-/

namespace BeanCatalog

structure FileTree where
  files : List (List String × List UInt8)
  folders : List (List String)

inductive FileError where
  | missing
  | isFolder
  | notFolder
  | nameTooLong
  | nulInPath
  deriving DecidableEq, Repr

def FileError.message : FileError → String
  | .missing => "No such file or directory"
  | .isFolder => "Is a directory"
  | .notFolder => "Not a directory"
  | .nameTooLong => "File name too long"
  | .nulInPath => "embedded null byte"

inductive FileEntry where
  | file (data : List UInt8)
  | folder

def hasNul (s : String) : Bool := s.toList.any (· == '\x00')

namespace FileTree

def places (t : FileTree) : List (List String) :=
  ((t.files.map Prod.fst ++ t.folders).flatMap fun p =>
    (List.range p.length).map fun n => p.take (n + 1)).eraseDups

def isFolder (t : FileTree) (p : List String) : Bool :=
  p.isEmpty || t.folders.any p.isPrefixOf ||
    t.files.any fun (q, _) => p.isPrefixOf q && p != q

def entry? (t : FileTree) (p : List String) : Option FileEntry :=
  match t.files.lookup p with
  | some data => some (.file data)
  | none => if t.isFolder p then some .folder else none

def longestName : Nat := 255

def walk (t : FileTree) : List String → List String → Except FileError (List String × FileEntry)
  | place, [] =>
    match t.entry? place with
    | some e => .ok (place, e)
    | none => .error .missing
  | place, name :: names =>
    match t.entry? place with
    | none => .error .missing
    | some (.file _) => .error .notFolder
    | some .folder =>
      if longestName < name.utf8ByteSize then .error .nameTooLong
      else t.walk (descend place name) names

def locate (t : FileTree) (current : List String) (path : String) :
    Except FileError (List String × FileEntry) :=
  if hasNul path then .error .nulInPath
  else t.walk (if path.startsWith "/" then [] else current) (pathNames path)

/-- Whether a path leads to a file. Too long a name is no answer; any other fault is a plain no. -/
def isFileAt (t : FileTree) (start names : List String) : Except FileError Bool :=
  if names.any hasNul then .ok false
  else
    match t.walk start names with
    | .ok (_, .file _) => .ok true
    | .error .nameTooLong => .error .nameTooLong
    | _ => .ok false

def readAt (t : FileTree) (start names : List String) : Except FileError (List UInt8) :=
  if names.any hasNul then .error .nulInPath
  else
    match t.walk start names with
    | .ok (_, .file data) => .ok data
    | .ok (_, .folder) => .error .isFolder
    | .error e => .error e

def children (t : FileTree) (p : List String) : List String :=
  t.places.filterMap fun q => if q.dropLast = p then q.getLast? else none

def below (t : FileTree) (p : List String) : List (List String) :=
  t.places.filterMap fun q => if p.isPrefixOf q && p != q then some (q.drop p.length) else none

end FileTree

end BeanCatalog
