import BeanCatalog.Environment.Placeholder
import BeanCatalog.Text.Blank

namespace BeanCatalog

structure Environment where
  active : List String
  defaults : List String
  properties : Table String

inductive ProfileError where
  | blank
  | noNames
  deriving DecidableEq, Repr

def ProfileError.message : ProfileError → String
  | .blank => "Invalid profile: must contain text"
  | .noNames => "no profile names given"

def activeProfilesProperty : String := "versadoc.profiles.active"

namespace Environment

def configuredProfiles (properties : Table String) : List String :=
  (((properties.get? activeProfilesProperty).getD "").splitOn ",").filter fun p => !Text.allBlank p

def create (active : Option (List String)) (defaults : List String) (properties : Table String) :
    Environment :=
  ⟨((active.getD (configuredProfiles properties)).map Text.strip).eraseDups, defaults.eraseDups,
    properties⟩

def standardDefaults : List String := ["default"]

def ofProperties (properties : Table String) : Environment :=
  create none standardDefaults properties

def isActive (env : Environment) (profile : String) : Bool :=
  if env.active.isEmpty then profile ∈ env.defaults else profile ∈ env.active

/-- Whether some profile of the list is accepted. An exclamation mark in front turns a profile
around. The list is read only up to the first accepted one. -/
def accepts (env : Environment) : List String → Except ProfileError Bool
  | [] => .ok false
  | profile :: rest =>
    if Text.allBlank profile then .error .blank
    else
      match profile.toList with
      | '!' :: cs =>
        let negated := String.ofList cs
        if Text.allBlank negated then .error .blank
        else if env.isActive negated then env.accepts rest else .ok true
      | _ => if env.isActive profile then .ok true else env.accepts rest

def resolveRequired (env : Environment) (text : String) : Except PlaceholderError String :=
  (resolvePlaceholders env.properties .required text).1

end Environment

end BeanCatalog
