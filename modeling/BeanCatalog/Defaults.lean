import BeanCatalog.Element

namespace BeanCatalog

inductive DefaultKey where
  | lazyInit
  | autowire
  | autowireCandidates
  | initMethod
  | destroyMethod
  | merge
  deriving DecidableEq, Repr

def DefaultKey.all : List DefaultKey :=
  [.lazyInit, .autowire, .autowireCandidates, .initMethod, .destroyMethod, .merge]

def DefaultKey.attribute : DefaultKey → String
  | .lazyInit => "default-lazy-init"
  | .autowire => "default-autowire"
  | .autowireCandidates => "default-autowire-candidates"
  | .initMethod => "default-init-method"
  | .destroyMethod => "default-destroy-method"
  | .merge => "default-merge"

def defaultValue : String := "default"

abbrev ScopeDefaults := DefaultKey → Option String

def ScopeDefaults.ofElement (e : Element) : ScopeDefaults := fun key =>
  let value := e.attr key.attribute
  if value = "" ∨ value = defaultValue then none else some value

/-- What the scopes around a place set, the innermost first. -/
abbrev Defaults := List ScopeDefaults

namespace Defaults

def resolve (scopes : Defaults) (key : DefaultKey) : Option String := scopes.findSome? (· key)

def enter (outer : Defaults) (e : Element) : Defaults := .ofElement e :: outer

end Defaults

end BeanCatalog
