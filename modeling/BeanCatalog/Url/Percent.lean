import BeanCatalog.Text.Utf8

namespace BeanCatalog.Percent

def hexValue? (c : Char) : Option Nat :=
  if '0' ≤ c ∧ c ≤ '9' then some (c.toNat - 48)
  else if 'a' ≤ c ∧ c ≤ 'f' then some (c.toNat - 87)
  else if 'A' ≤ c ∧ c ≤ 'F' then some (c.toNat - 55)
  else none

def isPlain (b : UInt8) : Bool :=
  let c := Char.ofNat b.toNat
  c.isAlphanum || c == '_' || c == '.' || c == '-' || c == '~' || c == '/'

def encodeByte (b : UInt8) : List Char :=
  if isPlain b then [Char.ofNat b.toNat]
  else
    let digit (n : Nat) := (Nat.digitChar n).toUpper
    ['%', digit (b.toNat / 16), digit (b.toNat % 16)]

def encode (s : String) : String := String.ofList ((Text.Utf8.encode s).flatMap encodeByte)

/-- Reads with the bytes seen since the last character beyond ASCII, the latest first. -/
def decodeFrom (pending : List UInt8) : List Char → List Char
  | [] => Text.Utf8.decodeLossy pending.reverse
  | '%' :: a :: b :: cs =>
    match hexValue? a, hexValue? b with
    | some x, some y => decodeFrom ((x * 16 + y).toUInt8 :: pending) cs
    | _, _ => decodeFrom ('%'.toNat.toUInt8 :: pending) (a :: b :: cs)
  | c :: cs =>
    if c.toNat < 128 then decodeFrom (c.toNat.toUInt8 :: pending) cs
    else Text.Utf8.decodeLossy pending.reverse ++ c :: decodeFrom [] cs

/-- Escapes become bytes, and each run of ASCII is read as UTF-8. A percent sign without two digits
behind it stays. -/
def decode (s : String) : String := String.ofList (decodeFrom [] s.toList)

end BeanCatalog.Percent
