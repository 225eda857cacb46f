import BeanCatalog.Files.Glob
import BeanCatalog.Resource.Basic
import BeanCatalog.Text.IdentifierRanges

/-!
Locations: texts that name resources. A location is a place in a package, a file URL or a path, and
the latter two may be patterns.
-/

namespace BeanCatalog.Location

def filePrefix : String := "file:"

def isUrl (location : String) : Bool :=
  location.startsWith packagePrefix || location.startsWith filePrefix

/-- Whether a location stands on its own. A scheme of one letter is a drive. -/
def isAbsolute (location : String) : Bool :=
  isUrl location ||
    match Url.split (String.ofList (location.toList.flatMap fun c =>
      if c = ' ' then ['%', '2', '0'] else [c])) with
    | .ok url => 1 < url.scheme.length
    | .error _ => false

def isIdentifier : List Char → Bool
  | [] => false
  | c :: cs =>
    Text.identifierStart.has c &&
      cs.all fun c => Text.identifierStart.has c || Text.identifierContinueOnly.has c

def isPackageName (name : List Char) : Bool := (Text.splitAny ['.'] name).all isIdentifier

def toPath (location : String) : Except Failure String :=
  if location.startsWith filePrefix then
    (Url.split location).mapError .url |>.map fun url => Percent.decode url.path
  else .ok location

def resource (w : Workspace) (location : String) : Except Failure Resource :=
  if location.startsWith packagePrefix then
    let cs := location.toList.drop packagePrefix.length
    let package := cs.takeWhile (· != '/')
    let path := cs.drop (package.length + 1)
    if path.isEmpty || !isPackageName package then .error (.packageLocation location)
    else .ok (.ofPackage (String.ofList package) (String.ofList path))
  else (toPath location).map (Resource.ofFile w)

/-- Every resource that a location names: the files that a pattern matches, in order, and one
resource for any other location, whether it exists or not. -/
def resources (w : Workspace) (location : String) : Except Failure (List Resource) :=
  if location.startsWith packagePrefix || !Text.hasWildcard location then do
    pure [← resource w location]
  else do
    let path ← toPath location
    let files ← (Glob.files w.tree w.current path).mapError .file
    pure (files.map (Resource.ofFile w))

end BeanCatalog.Location
