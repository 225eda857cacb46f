import BeanCatalog.Table

namespace BeanCatalog

inductive Content (ε : Type) where
  | text (s : String)
  | element (e : ε)

/-- An attribute of another namespace is named `{uri}local`. -/
structure Element where
  tag : String
  uri : Option String
  attributes : Table String
  contents : List (Content Element)
  line : Option Int
  deriving Inhabited

structure SyntaxError where
  line : Nat
  message : String

inductive ElementKind where
  | importing
  | aliasing
  | bean
  | beans
  | other
  deriving DecidableEq, Repr

def defaultNamespace : String := "http://versadoc.dev/schema/beans"

/-- An absent or empty URI stands for the default namespace too. -/
def isDefaultNamespace : Option String → Bool
  | none => true
  | some uri => uri == "" || uri == defaultNamespace

def ElementKind.ofTag : String → ElementKind
  | "import" => .importing
  | "alias" => .aliasing
  | "bean" => .bean
  | "beans" => .beans
  | _ => .other

namespace Content

def text? {ε : Type} : Content ε → Option String
  | .text s => some s
  | .element _ => none

def element? {ε : Type} : Content ε → Option ε
  | .text _ => none
  | .element e => some e

end Content

namespace Element

def attr (e : Element) (name : String) : String := (e.attributes.get? name).getD ""

def hasAttr (e : Element) (name : String) : Bool := e.attributes.has name

def attr? (e : Element) (name : String) : Option String :=
  if e.attr name = "" then none else some (e.attr name)

def children (e : Element) : List Element := e.contents.filterMap Content.element?

def text (e : Element) : String := String.join (e.contents.filterMap Content.text?)

def isDefault (e : Element) : Bool := isDefaultNamespace e.uri

def kind (e : Element) : ElementKind := ElementKind.ofTag e.tag

end Element

end BeanCatalog
