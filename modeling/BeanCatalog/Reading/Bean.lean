import BeanCatalog.Reading.Context
import BeanCatalog.Text.Tokens
import BeanCatalog.Text.Wildcard

/-!
Beans: the elements that become definitions. A bean that cannot become one is reported; a child
that is at fault is reported and left out.
-/

namespace BeanCatalog

def firstFree (taken : Nat → Bool) : (fuel : Nat) → (start : Nat) → Nat
  | 0, start => start
  | fuel + 1, start => if taken start then firstFree taken fuel (start + 1) else start

def generatedName (className : String) (n : Nat) : String := className ++ "#" ++ toString n

/-- The first generated name that the registry does not know. Each one taken is a definition or an
alias of its own, which bounds the search. -/
def freeName {δ : Type} (r : Registry δ) (className : String) : String :=
  generatedName className <|
    firstFree (fun n => r.contains (generatedName className n)) (r.size + r.aliases.length) 0

def autowireModes : List String := ["no", "byName", "byType", "constructor"]

namespace Scope

variable (scope : Scope)

def valueOr (e : Element) (name : String) (key : DefaultKey) (fallback : String) : String :=
  let value := e.attr name
  if value = "" ∨ value = defaultValue then (scope.defaults.resolve key).getD fallback else value

/-- The bean's own value whenever the attribute is there, where an empty one means none. -/
def methodName (e : Element) (name : String) (key : DefaultKey) : Option String :=
  if e.hasAttr name then e.attr? name else scope.defaults.resolve key

/-- A named bean is matched against the patterns of the scopes unless it decides for itself. -/
def autowireCandidate (e : Element) (name : String) : Bool :=
  let value := e.attr "autowire-candidate"
  if value ≠ "" ∧ value ≠ defaultValue then value == "true"
  else
    match scope.defaults.resolve .autowireCandidates with
    | some patterns =>
      name = "" || (Text.tokenize patterns ",").any fun p => Text.matchesPattern p name
    | none => true

def argument (e : Element) : Except Fault PropertyValue :=
  if e.hasAttr "value" = e.hasAttr "ref" then .error (.valueOrRef e.tag)
  else if e.hasAttr "ref" then
    if e.attr "ref" = "" then .error (.emptyRef e.tag)
    else .ok ⟨e.attr? "name", .ref (e.attr "ref")⟩
  else .ok ⟨e.attr? "name", .value (e.attr "value")⟩

def property (kept : List PropertyValue) (e : Element) : Except Fault PropertyValue :=
  let name := e.attr "name"
  if name = "" then .error .unnamedProperty
  else if kept.any (·.name == some name) then .error (.repeatedProperty name)
  else argument e

def keep (e : Element) (parsed : Except Fault PropertyValue) (store : PropertyValue → Definition)
    (d : Definition) : Reading Definition :=
  match parsed with
  | .ok v => pure (store v)
  | .error fault => do
    scope.context.error fault e
    pure d

/-- Adds what a child of the bean says. Children of other namespaces say nothing here. -/
def addChild (d : Definition) (e : Element) : Reading Definition :=
  if !e.isDefault then pure d
  else if e.tag = "description" then pure { d with description := some (Text.strip e.text) }
  else if e.tag = "property" then
    scope.keep e (property d.properties e)
      (fun v => { d with properties := d.properties ++ [v] }) d
  else if e.tag = "constructor-arg" then
    scope.keep e (argument e) (fun v => { d with constructorArgs := d.constructorArgs ++ [v] }) d
  else pure d

def attributesOf (e : Element) (className : Option String) (name : String) :
    Except Fault Definition :=
  let lazyInit := scope.valueOr e "lazy-init" .lazyInit "false"
  let autowire := scope.valueOr e "autowire" .autowire "no"
  if lazyInit ≠ "true" ∧ lazyInit ≠ "false" then .error (.invalidLazyInit lazyInit)
  else if autowire ∉ autowireModes then .error (.invalidAutowire autowire)
  else
    .ok
      { className := className
        scope := (e.attr? "scope").getD "singleton"
        lazyInit := lazyInit == "true"
        autowire := autowire
        autowireCandidate := scope.autowireCandidate e name
        initMethod := scope.methodName e "init-method" .initMethod
        destroyMethod := scope.methodName e "destroy-method" .destroyMethod
        dependsOn := Text.tokenize (e.attr "depends-on")
        resource := some scope.context.resource.description }

/-- Takes names for a bean. Names are taken once in a scope, and all of a bean's or none. -/
def takeNames (names : List String) (e : Element) : Reading Bool := do
  let names := names.filter (· ≠ "")
  let used := (← get).usedNames
  match names.find? (used.contains ·) with
  | some name => do
    scope.context.error (.nameInUse name) e
    pure false
  | none => do
    modify fun s => { s with usedNames := names ++ s.usedNames }
    pure true

/-- The name and the aliases that a bean gives itself: without an identifier, its first name. -/
def namesOf (e : Element) : Reading (String × List String) := do
  let names := Text.tokenize (e.attr "name")
  match e.attr? "id", names with
  | none, name :: aliases => do
    Reading.remark (.namedByAlias name aliases)
    pure (name, aliases)
  | id, aliases => pure (id.getD "", aliases)

def parseDefinition (e : Element) (name : String) (aliases : List String) :
    Reading (Option Holder) :=
  match scope.attributesOf e (e.attr? "class") name with
  | .error fault => do
    scope.context.error fault e
    pure none
  | .ok d => do
    let d ← e.children.foldlM scope.addChild d
    let registry := (← get).registry
    let name := if name = "" then freeName registry ((e.attr? "class").getD "") else name
    pure (some ⟨name, d, aliases⟩)

def parseNamed (e : Element) (name : String) (aliases : List String) :
    Reading (Option Holder) := do
  if !(← scope.takeNames (name :: aliases) e) then pure none
  else scope.parseDefinition e name aliases

def parseBean (e : Element) : Reading (Option Holder) := do
  let (name, aliases) ← namesOf e
  match name, e.attr? "class" with
  | "", none => do
    scope.context.error .unnamed e
    pure none
  | _, _ => scope.parseNamed e name aliases

end Scope

end BeanCatalog
