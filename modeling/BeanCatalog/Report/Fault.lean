namespace BeanCatalog

inductive LocationKind where
  | absolute
  | relative
  deriving DecidableEq, Repr

def LocationKind.word : LocationKind → String
  | .absolute => "URL"
  | .relative => "relative"

inductive Fault where
  | emptyLocation
  | importFailed (kind : LocationKind) (location : String)
  | nothingFound (kind : LocationKind) (location : String)
  | unresolvedBase
  | invalidProfiles (spec : String)
  | emptyName
  | emptyAlias
  | aliasRefused (name alt : String)
  | definitionRefused (name : String)
  | unnamed
  | nameInUse (name : String)
  | invalidLazyInit (value : String)
  | invalidAutowire (value : String)
  | unnamedProperty
  | repeatedProperty (name : String)
  | valueOrRef (tag : String)
  | emptyRef (tag : String)
  | noHandler (uri : Option String)
  | unsupportedElement (handler tag : String)
  /-- What a handler reports, in its own words. -/
  | other (text : String)
  deriving DecidableEq, Repr

def Fault.message : Fault → String
  | .emptyLocation => "Resource location must not be empty"
  | .importFailed kind location =>
    "Failed to import definitions from " ++ kind.word ++ " location [" ++ location ++ "]"
  | .nothingFound kind location =>
    "No resources found at " ++ kind.word ++ " location [" ++ location ++ "]"
  | .unresolvedBase => "Failed to resolve current resource location"
  | .invalidProfiles spec => "Invalid profile specification [" ++ spec ++ "]"
  | .emptyName => "Name must not be empty"
  | .emptyAlias => "Alias must not be empty"
  | .aliasRefused name alt =>
    "Failed to register alias '" ++ alt ++ "' for definition with name '" ++ name ++ "'"
  | .definitionRefused name => "Failed to register definition with name '" ++ name ++ "'"
  | .unnamed => "Definition requires either an 'id', a 'name' or a 'class'"
  | .nameInUse name => "Name '" ++ name ++ "' is already used in this <beans> element"
  | .invalidLazyInit value => "Invalid lazy-init value '" ++ value ++ "'"
  | .invalidAutowire value => "Invalid autowire mode '" ++ value ++ "'"
  | .unnamedProperty => "Tag 'property' must have a 'name' attribute"
  | .repeatedProperty name => "Multiple 'property' definitions for property '" ++ name ++ "'"
  | .valueOrRef tag => "<" ++ tag ++ "> must specify exactly one of 'value' or 'ref'"
  | .emptyRef tag => "<" ++ tag ++ "> contains empty 'ref' attribute"
  | .noHandler uri =>
    "Unable to locate namespace handler for namespace [" ++ uri.getD "None" ++ "]"
  | .unsupportedElement handler tag => handler ++ " does not support element <" ++ tag ++ ">"
  | .other text => text

end BeanCatalog
