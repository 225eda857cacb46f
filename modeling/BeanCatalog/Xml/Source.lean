import BeanCatalog.Text.Utf8
import BeanCatalog.Xml.Declaration

namespace BeanCatalog.Xml

/-- The text up to the first place that holds no character allowed in a document, if there is one,
and whether there is none. -/
structure Source where
  text : List Char
  sound : Bool

/-- Two bytes to a code unit. An odd byte at the end stands as a unit beyond all. -/
def units16 (bigEndian : Bool) : List UInt8 → List Nat
  | a :: b :: bs =>
    (if bigEndian then a.toNat * 256 + b.toNat else b.toNat * 256 + a.toNat) :: units16 bigEndian bs
  | [_] => [0x10000]
  | [] => []

def decodeUnits : List Nat → List (Option Char)
  | [] => []
  | [u] => [if (0xD800 ≤ u ∧ u ≤ 0xDFFF) ∨ 0x10000 ≤ u then none else some (Char.ofNat u)]
  | u :: v :: us =>
    if 0xD800 ≤ u ∧ u ≤ 0xDBFF then
      if 0xDC00 ≤ v ∧ v ≤ 0xDFFF then
        some (Char.ofNat ((u - 0xD800) * 0x400 + (v - 0xDC00) + 0x10000)) :: decodeUnits us
      else none :: decodeUnits (v :: us)
    else if 0xDC00 ≤ u ∧ u ≤ 0xDFFF then none :: decodeUnits (v :: us)
    else some (Char.ofNat u) :: decodeUnits (v :: us)
termination_by us => us.length

def decodeLatin1 (bs : List UInt8) : List (Option Char) := bs.map fun b => some (Char.ofNat b.toNat)

def decodeAscii (bs : List UInt8) : List (Option Char) :=
  bs.map fun b => if b < 128 then some (Char.ofNat b.toNat) else none

/-- The characters of a document, where `none` stands for bytes that are no character. -/
def decodeDocument : List UInt8 → List (Option Char)
  | 0xEF :: 0xBB :: 0xBF :: bs => Text.Utf8.decode bs
  | 0xFE :: 0xFF :: bs => decodeUnits (units16 true bs)
  | 0xFF :: 0xFE :: bs => decodeUnits (units16 false bs)
  | 0x00 :: 0x3C :: 0x00 :: 0x3F :: bs => decodeUnits (units16 true (0x00 :: 0x3C :: 0x00 :: 0x3F :: bs))
  | 0x3C :: 0x00 :: 0x3F :: 0x00 :: bs => decodeUnits (units16 false (0x3C :: 0x00 :: 0x3F :: 0x00 :: bs))
  | bs =>
    match Declaration.encodingOf? ((decodeLatin1 bs).filterMap id) with
    | some .latin1 => decodeLatin1 bs
    | some .ascii => decodeAscii bs
    | some .utf16 => [none]
    | some .utf8 | none => Text.Utf8.decode bs

def joinLineEnds : List Char → List Char
  | '\r' :: '\n' :: cs => '\n' :: joinLineEnds cs
  | c :: cs => c :: joinLineEnds cs
  | [] => []

namespace Source

def ofChars (cs : List (Option Char)) : Source :=
  let isGood (c : Option Char) := (c.map isChar).getD false
  let good := cs.takeWhile isGood
  ⟨joinLineEnds (good.filterMap id), good.length == cs.length⟩

def ofBytes (bs : List UInt8) : Source := ofChars (decodeDocument bs)

end Source

end BeanCatalog.Xml
