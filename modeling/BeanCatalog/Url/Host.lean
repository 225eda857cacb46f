import BeanCatalog.Text.Tokens
import BeanCatalog.Url.Percent

namespace BeanCatalog.Host

def isHexDigit (c : Char) : Bool := (Percent.hexValue? c).isSome

def isOctet (cs : List Char) : Bool :=
  !cs.isEmpty && cs.all (fun c => '0' ≤ c && c ≤ '9') && cs.length ≤ 3 &&
    (cs == ['0'] || cs.head? != some '0') &&
    cs.foldl (fun n c => n * 10 + (c.toNat - 48)) 0 ≤ 255

def isV4 (cs : List Char) : Bool :=
  let octets := Text.splitAny ['.'] cs
  octets.length == 4 && octets.all isOctet

def isHextet (cs : List Char) : Bool := !cs.isEmpty && cs.all isHexDigit && cs.length ≤ 4

/-- Eight groups, where one empty group inside stands for one or more groups of zeros. An empty
group at either end is the other half of a gap that reaches it. -/
def isGroups (parts : List (List Char)) : Bool :=
  let inner := (parts.drop 1).dropLast
  match inner.filter (·.isEmpty) with
  | [] => parts.length == 8 && parts.all isHextet
  | [_] =>
    let front := parts.takeWhile (!·.isEmpty)
    let front := if parts.head? == some [] then [] else front
    let back := (parts.reverse.takeWhile (!·.isEmpty)).reverse
    let leading := parts.head? != some [] || (parts.drop 1).head? == some []
    let trailing := parts.getLast? != some [] || (parts.dropLast.getLast? == some [])
    leading && trailing && front.length + back.length ≤ 7 && (front ++ back).all isHextet
  | _ => false

/-- A zone may follow a percent sign. A last part with dots is an address of the older kind and
stands for two groups. -/
def isV6 (cs : List Char) : Bool :=
  let address := cs.takeWhile (· != '%')
  let zone := cs.drop address.length
  let zoneOk := zone.isEmpty || (1 < zone.length && !(zone.drop 1).contains '%')
  let parts := Text.splitAny [':'] address
  let last := parts.getLast?.getD []
  let groups := if last.contains '.' then parts.dropLast ++ [['0'], ['0']] else parts
  zoneOk && 3 ≤ parts.length && (!last.contains '.' || isV4 last) && groups.length ≤ 9 &&
    isGroups groups

def isFuture : List Char → Bool
  | 'v' :: cs =>
    let version := cs.takeWhile isHexDigit
    let rest := cs.drop version.length
    !version.isEmpty && rest.head? == some '.' && 1 < rest.length
  | _ => false

end BeanCatalog.Host
