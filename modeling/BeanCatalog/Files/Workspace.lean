import BeanCatalog.Files.Tree

/-!
What documents are read from: a tree of files, the current folder, and packages. A package is a
folder whose place follows its dotted name.
-/

namespace BeanCatalog

structure Workspace where
  tree : FileTree
  current : List String
  packageRoot : List String
  packages : List (List String)

/-- The folder of a package. A package makes the packages around it known too. -/
def Workspace.packageFolder? (w : Workspace) (package : String) : Option (List String) :=
  let parts := (Text.splitAny ['.'] package.toList).map String.ofList
  if w.packages.any parts.isPrefixOf then some (w.packageRoot ++ parts) else none

end BeanCatalog
