import BeanCatalog.Text.Tokens
import BeanCatalog.Url.Percent

namespace BeanCatalog.Xml.Uri

def isUnreserved (c : Char) : Bool := c.isAlphanum || c ∈ ['-', '.', '_', '~']

def isSubDelimiter (c : Char) : Bool := c ∈ ['!', '$', '&', '\'', '(', ')', '*', '+', ',', ';', '=']

def allOf (extra : List Char) : List Char → Bool
  | [] => true
  | '%' :: a :: b :: cs =>
    (Percent.hexValue? a).isSome && (Percent.hexValue? b).isSome && allOf extra cs
  | c :: cs => (isUnreserved c || isSubDelimiter c || extra.contains c) && allOf extra cs

def cut (sep : Char) (cs : List Char) : List Char × Option (List Char) :=
  let front := cs.takeWhile (· != sep)
  (front, match cs.drop front.length with
    | [] => none
    | _ :: rest => some rest)

def isPath (cs : List Char) : Bool := allOf [':', '@', '/'] cs

def isPort (cs : List Char) : Bool := cs.all Char.isDigit

def isHostPort (cs : List Char) : Bool :=
  match cs with
  | '[' :: _ =>
    match cut ']' cs with
    | (_, some []) => true
    | (_, some (':' :: port)) => isPort port
    | _ => false
  | _ =>
    let (host, port) := cut ':' cs
    allOf [] host && isPort (port.getD [])

def isAuthority (cs : List Char) : Bool :=
  match cut '@' cs with
  | (user, some rest) => allOf [':'] user && isHostPort rest
  | (rest, none) => isHostPort rest

def isHierarchy (cs : List Char) : Bool :=
  match cs with
  | '/' :: '/' :: rest =>
    let authority := rest.takeWhile (· != '/')
    isAuthority authority && isPath (rest.drop authority.length)
  | _ => isPath cs

def isScheme : List Char → Bool
  | [] => false
  | c :: cs => c.isAlpha && cs.all fun c => c.isAlphanum || c ∈ ['+', '-', '.']

def isReference (s : List Char) : Bool :=
  let (s, fragment) := cut '#' s
  let (s, query) := cut '?' s
  let absolute := match cut ':' s with
    | (scheme, some rest) => isScheme scheme && isHierarchy rest
    | _ => false
  let relative :=
    isHierarchy s && (s.head? == some '/' || !(s.takeWhile (· != '/')).contains ':')
  (absolute || relative) && allOf [':', '@', '/', '?'] (query.getD []) &&
    allOf [':', '@', '/', '?'] (fragment.getD [])

end BeanCatalog.Xml.Uri
