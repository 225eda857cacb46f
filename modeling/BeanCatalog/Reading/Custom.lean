import BeanCatalog.Reading.Context

namespace BeanCatalog

def foreignUri? (name : String) : Option String :=
  match name.toList with
  | '{' :: cs => some (String.ofList (cs.takeWhile (· != '}')))
  | _ => none

namespace Scope

variable (scope : Scope) (handlers : Table Handler)

def parseCustom (e : Element) : Reading (Option Definition) :=
  match e.uri.bind handlers.get? with
  | some handler => handler.parse scope e
  | none => do
    scope.context.error (.noHandler e.uri) e
    pure none

def decorateBy (uri : String) (node : Element) (name : Option String) (holder : Holder) :
    Reading Holder :=
  if isDefaultNamespace (some uri) then pure holder
  else
    match handlers.get? uri with
    | some handler => handler.decorate scope node holder name
    | none => do
      Reading.remark (.undecorated uri)
      pure holder

def decorate (e : Element) (holder : Holder) : Reading Holder := do
  let holder ← e.attributes.keys.foldlM (fun holder name =>
    match foreignUri? name with
    | some uri => scope.decorateBy handlers uri e (some name) holder
    | none => pure holder) holder
  e.children.foldlM (fun holder child =>
    if child.isDefault then pure holder
    else scope.decorateBy handlers (child.uri.getD "") child none holder) holder

end Scope

end BeanCatalog
