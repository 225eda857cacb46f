/-!
UTF-8, read byte by byte. A malformed stretch, cut at the first byte that cannot continue it,
stands as `none`.
-/

namespace BeanCatalog.Text.Utf8

inductive State where
  | start
  | within (owed low high bits : Nat)
  deriving DecidableEq, Repr

def first (b : Nat) : List (Option Char) × State :=
  if b ≤ 0x7F then ([some (Char.ofNat b)], .start)
  else if 0xC2 ≤ b ∧ b ≤ 0xDF then ([], .within 0 0x80 0xBF (b - 0xC0))
  else if b = 0xE0 then ([], .within 1 0xA0 0xBF 0)
  else if b = 0xED then ([], .within 1 0x80 0x9F 0xD)
  else if 0xE1 ≤ b ∧ b ≤ 0xEF then ([], .within 1 0x80 0xBF (b - 0xE0))
  else if b = 0xF0 then ([], .within 2 0x90 0xBF 0)
  else if 0xF1 ≤ b ∧ b ≤ 0xF3 then ([], .within 2 0x80 0xBF (b - 0xF0))
  else if b = 0xF4 then ([], .within 2 0x80 0x8F 4)
  else ([none], .start)

def step : State → Nat → List (Option Char) × State
  | .start, b => first b
  | .within owed low high bits, b =>
    if low ≤ b ∧ b ≤ high then
      let bits := bits * 64 + (b - 0x80)
      match owed with
      | 0 => ([some (Char.ofNat bits)], .start)
      | n + 1 => ([], .within n 0x80 0xBF bits)
    else
      let (out, next) := first b
      (none :: out, next)

def run : State → List UInt8 → List (Option Char)
  | .start, [] => []
  | .within .., [] => [none]
  | state, b :: bs =>
    let (out, next) := step state b.toNat
    out ++ run next bs

def decode (bs : List UInt8) : List (Option Char) := run .start bs

/-- Each malformed stretch becomes one U+FFFD. -/
def decodeLossy (bs : List UInt8) : List Char := (decode bs).map (·.getD '\uFFFD')

def encode (s : String) : List UInt8 := s.toList.flatMap String.utf8EncodeChar

end BeanCatalog.Text.Utf8
