import BeanCatalog.Text.PrintableRanges

/-!
Quoted texts, as they stand in messages: single quotes unless only those occur inside, a backslash
before the quote and before itself, and escapes for what cannot be printed.
-/

namespace BeanCatalog.Text

def hexDigits (width n : Nat) : List Char :=
  let ds := Nat.toDigits 16 n
  List.replicate (width - ds.length) '0' ++ ds

def escapeCode (c : Char) : List Char :=
  let n := c.toNat
  if n ≤ 0xFF then '\\' :: 'x' :: hexDigits 2 n
  else if n ≤ 0xFFFF then '\\' :: 'u' :: hexDigits 4 n
  else '\\' :: 'U' :: hexDigits 8 n

def quoteChar (quote c : Char) : List Char :=
  if c = quote ∨ c = '\\' then ['\\', c]
  else if c = '\t' then ['\\', 't']
  else if c = '\n' then ['\\', 'n']
  else if c = '\r' then ['\\', 'r']
  else if printable.has c then [c]
  else escapeCode c

def quote (s : String) : String :=
  let cs := s.toList
  let q := if '\'' ∈ cs ∧ '"' ∉ cs then '"' else '\''
  String.ofList (q :: cs.flatMap (quoteChar q) ++ [q])

def quoteList (l : List String) : String :=
  "[" ++ ", ".intercalate (l.map quote) ++ "]"

end BeanCatalog.Text
