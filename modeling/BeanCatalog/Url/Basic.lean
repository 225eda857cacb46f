import BeanCatalog.Url.Host
import BeanCatalog.Text.Quoted

namespace BeanCatalog

structure Url where
  scheme : String
  authority : String
  path : String
  deriving DecidableEq, Repr

inductive UrlError where
  | brackets
  | future
  | olderAddress
  | address (host : String)
  | compatibility (authority : String)
  deriving DecidableEq, Repr

def UrlError.message : UrlError → String
  | .brackets => "Invalid IPv6 URL"
  | .future => "IPvFuture address is invalid"
  | .olderAddress => "An IPv4 address cannot be in brackets"
  | .address host => Text.quote host ++ " does not appear to be an IPv4 or IPv6 address"
  | .compatibility authority =>
    "netloc '" ++ authority ++ "' contains invalid characters under NFKC normalization"

namespace Url

def isSchemeChar (c : Char) : Bool := c.isAlphanum || c == '+' || c == '-' || c == '.'

def splitScheme (cs : List Char) : List Char × List Char :=
  let front := cs.takeWhile (· != ':')
  match cs.drop front.length with
  | _ :: rest =>
    if (front.head?.map Char.isAlpha).getD false && front.all isSchemeChar then
      (front.map Char.toLower, rest)
    else ([], cs)
  | [] => ([], cs)

def splitAuthority : List Char → List Char × List Char
  | '/' :: '/' :: cs =>
    let authority := cs.takeWhile fun c => c != '/' && c != '?' && c != '#'
    (authority, cs.drop authority.length)
  | cs => ([], cs)

/-- Characters whose compatibility form holds one of `/ ? # @ :`. -/
def separatorLike : Text.Ranges :=
  [(0x2047, 0x2049), (0x2100, 0x2101), (0x2105, 0x2106), (0x2A74, 0x2A74), (0xFE13, 0xFE13),
   (0xFE16, 0xFE16), (0xFE55, 0xFE56), (0xFE5F, 0xFE5F), (0xFE6B, 0xFE6B), (0xFF03, 0xFF03),
   (0xFF0F, 0xFF0F), (0xFF1A, 0xFF1A), (0xFF1F, 0xFF20)]

/-- A bracketed host has to be an address of the newer kind or of a kind to come. -/
def checkBrackets (authority : List Char) : Except UrlError Unit :=
  if authority.contains '[' != authority.contains ']' then .error .brackets
  else if !authority.contains '[' then .ok ()
  else
    let host := ((authority.dropWhile (· != '[')).drop 1).takeWhile (· != ']')
    if host.head? == some 'v' then if Host.isFuture host then .ok () else .error .future
    else if Host.isV4 host then .error .olderAddress
    else if Host.isV6 host then .ok ()
    else .error (.address (String.ofList host))

/-- Control characters and blanks in front, and tabs and line ends anywhere, do not count. -/
def clean (cs : List Char) : List Char :=
  (cs.dropWhile (·.toNat ≤ 0x20)).filter fun c => c != '\t' && c != '\n' && c != '\r'

def split (s : String) : Except UrlError Url := do
  let (scheme, rest) := splitScheme (clean s.toList)
  let (authority, rest) := splitAuthority rest
  checkBrackets authority
  if authority.any separatorLike.has then
    throw (.compatibility (String.ofList authority))
  let path := rest.takeWhile fun c => c != '?' && c != '#'
  pure ⟨String.ofList scheme, String.ofList authority, String.ofList path⟩

end Url

end BeanCatalog
