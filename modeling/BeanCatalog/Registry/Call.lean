import BeanCatalog.Registry.Basic
import BeanCatalog.Definition

namespace BeanCatalog

inductive RegistryCall (δ : Type) where
  | define (name : String) (d : δ)
  | addAlias (name alt : String)

inductive Replacement where
  | definition (name : String)
  | target (alt registered name : String)
  deriving DecidableEq, Repr

def Replacement.message : Replacement → String
  | .definition name => "Overriding definition for name '" ++ name ++ "'"
  | .target alt registered name =>
    "Overriding alias '" ++ alt ++ "' definition for registered name '" ++ registered ++
      "' with new target name '" ++ name ++ "'"

def RegistryCall.all {δ : Type} (name : String) (d : δ) (aliases : List String) :
    List (RegistryCall δ) :=
  .define name d :: aliases.map (.addAlias name)

def Holder.calls (h : Holder) : List (RegistryCall Definition) :=
  RegistryCall.all h.name h.definition h.aliases

namespace Registry

variable {δ : Type}

def call (r : Registry δ) : RegistryCall δ → Except Refusal (Registry δ)
  | .define name d => r.define name d
  | .addAlias name alt => r.addAlias name alt

/-- A definition that takes the place of another one, not the `same`, is a replacement; so is a new
target for an alias, even when it is refused for closing a cycle. -/
def replacement? (r : Registry δ) (same : δ → δ → Bool) : RegistryCall δ → Option Replacement
  | .define name d =>
    match r.definitions.get? name with
    | some old => if r.allowOverriding && !same old d then some (.definition name) else none
    | none => none
  | .addAlias name alt =>
    match r.aliases.get? alt with
    | some registered =>
      if name = "" ∨ alt = "" ∨ alt = name ∨ registered = name ∨ !r.allowOverriding then none
      else some (.target alt registered name)
    | none => none

structure Run (δ : Type) where
  registry : Registry δ
  replacements : List Replacement
  refusal : Option Refusal

def calls (r : Registry δ) (same : δ → δ → Bool) : List (RegistryCall δ) → Run δ
  | [] => ⟨r, [], none⟩
  | c :: cs =>
    let replaced := (r.replacement? same c).toList
    match r.call c with
    | .error refusal => ⟨r, replaced, some refusal⟩
    | .ok next =>
      let run := next.calls same cs
      { run with replacements := replaced ++ run.replacements }

end Registry

end BeanCatalog
