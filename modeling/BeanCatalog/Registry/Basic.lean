import BeanCatalog.Table

/-!
The registry: named definitions, further names for them, and a policy on whether a name may be
taken twice. An alias points at a name, which may be an alias itself.
-/

namespace BeanCatalog

structure Registry (δ : Type) where
  allowOverriding : Bool := true
  definitions : Table δ := []
  aliases : Table String := []

inductive Refusal where
  | emptyName
  | nameTaken (name : String)
  | emptyAlias
  | aliasTaken (alt name registered : String)
  | aliasCycle (alt name : String)
  deriving DecidableEq, Repr

def Refusal.message : Refusal → String
  | .emptyName => "Definition name must not be empty"
  | .nameTaken name =>
    "Cannot register definition '" ++ name ++ "': there is already a definition bound to that name"
  | .emptyAlias => "Name and alias must not be empty"
  | .aliasTaken alt name registered =>
    "Cannot define alias '" ++ alt ++ "' for name '" ++ name ++
      "': it is already registered for name '" ++ registered ++ "'"
  | .aliasCycle alt name =>
    "Cannot register alias '" ++ alt ++ "' for name '" ++ name ++ "': circular reference - '" ++
      name ++ "' is a direct or indirect alias for '" ++ alt ++ "' already"

def followAliases (aliases : Table String) : Nat → String → String
  | 0, name => name
  | n + 1, name =>
    match aliases.get? name with
    | none => name
    | some next => followAliases aliases n next

def meetsAlias (aliases : Table String) (goal : String) : Nat → String → Bool
  | 0, _ => false
  | n + 1, name =>
    match aliases.get? name with
    | none => false
    | some next => next == goal || meetsAlias aliases goal n next

namespace Registry

variable {δ : Type}

/-- The end of the alias chain of a name. A chain without repetition has at most as many steps as
there are aliases. -/
def canonical (r : Registry δ) (name : String) : String :=
  followAliases r.aliases r.aliases.length name

def leadsTo (r : Registry δ) (name goal : String) : Bool :=
  meetsAlias r.aliases goal r.aliases.length name

def get? (r : Registry δ) (name : String) : Option δ := r.definitions.get? (r.canonical name)

def contains (r : Registry δ) (name : String) : Bool := r.definitions.has (r.canonical name)

def isAlias (r : Registry δ) (name : String) : Bool := r.aliases.has name

def aliasesOf (r : Registry δ) (name : String) : List String :=
  r.aliases.keys.filter fun alt => r.canonical alt == name

def names (r : Registry δ) : List String := r.definitions.keys

def size (r : Registry δ) : Nat := r.definitions.length

def define (r : Registry δ) (name : String) (d : δ) : Except Refusal (Registry δ) :=
  if name = "" then .error .emptyName
  else if r.definitions.has name && !r.allowOverriding then .error (.nameTaken name)
  else .ok { r with definitions := r.definitions.put name d }

/-- An alias for itself is no alias any more. -/
def addAlias (r : Registry δ) (name alt : String) : Except Refusal (Registry δ) :=
  if name = "" ∨ alt = "" then .error .emptyAlias
  else if alt = name then .ok { r with aliases := r.aliases.erase alt }
  else if r.aliases.get? alt = some name then .ok r
  else
    match r.aliases.get? alt, r.allowOverriding with
    | some registered, false => .error (.aliasTaken alt name registered)
    | _, _ =>
      if r.leadsTo name alt then .error (.aliasCycle alt name)
      else .ok { r with aliases := r.aliases.put alt name }

end Registry

end BeanCatalog
