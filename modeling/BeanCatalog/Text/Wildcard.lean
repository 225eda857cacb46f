/-!
Wildcard patterns on names: `*` stands for any run of characters, `?` for one, `[...]` for one of a
set and `[!...]` for one outside it. A bracket that is never closed stands for itself.
-/

namespace BeanCatalog.Text

inductive SetMark where
  | char (c : Char)
  | to
  deriving DecidableEq, Repr

inductive WildItem where
  | star
  | one
  | char (c : Char)
  | set (negated : Bool) (ranges : List (Char × Char))
  deriving DecidableEq, Repr

namespace SetMark

/-- A hyphen marks a range unless it stands first, last, or right behind a range. -/
def ofChars : List Char → List SetMark
  | low :: '-' :: high :: cs => .char low :: .to :: .char high :: ofChars cs
  | c :: cs => .char c :: ofChars cs
  | [] => []

/-- Ranges that run backwards hold nothing. -/
def dropEmpty : List SetMark → List SetMark
  | .char low :: .to :: .char high :: ms =>
    if high < low then dropEmpty ms else .char low :: .to :: .char high :: dropEmpty ms
  | m :: ms => m :: dropEmpty ms
  | [] => []

def ranges : List SetMark → List (Char × Char)
  | .char low :: .to :: .char high :: ms => (low, high) :: ranges ms
  | .char c :: ms => (c, c) :: ranges ms
  | .to :: ms => ('-', '-') :: ranges ms
  | [] => []

end SetMark

namespace WildItem

def ofSet (body : List Char) : WildItem :=
  let marks := SetMark.dropEmpty <|
    match body with
    | '!' :: cs => .char '!' :: SetMark.ofChars cs
    | cs => SetMark.ofChars cs
  match marks with
  | .char '!' :: ms => .set true (SetMark.ranges ms)
  | ms => .set false (SetMark.ranges ms)

def accepts : WildItem → Char → Bool
  | .star, _ => true
  | .one, _ => true
  | .char d, c => c == d
  | .set negated rs, c => (rs.any fun (low, high) => low ≤ c && c ≤ high) != negated

end WildItem

def untilBracket : List Char → Option (List Char × List Char)
  | [] => none
  | ']' :: cs => some ([], cs)
  | c :: cs => (untilBracket cs).map fun (body, rest) => (c :: body, rest)

/-- The body of a set, behind its opening bracket: a closing bracket that stands first, or right
behind the exclamation mark, belongs to the set. -/
def setBody? : List Char → Option (List Char × List Char)
  | '!' :: ']' :: cs => (untilBracket cs).map fun (body, rest) => ('!' :: ']' :: body, rest)
  | ']' :: cs => (untilBracket cs).map fun (body, rest) => (']' :: body, rest)
  | cs => untilBracket cs

theorem length_of_untilBracket {cs body rest : List Char}
    (h : untilBracket cs = some (body, rest)) : rest.length < cs.length := by
  fun_induction untilBracket cs generalizing body with
  | case1 => simp at h
  | case2 => simp_all
  | case3 c cs _ ih =>
    obtain ⟨⟨b, r⟩, hb, he⟩ := Option.map_eq_some_iff.1 h
    obtain ⟨-, rfl⟩ := Prod.mk.inj he
    have := ih hb
    simp only [List.length_cons]
    omega

theorem length_of_setBody? {cs body rest : List Char}
    (h : setBody? cs = some (body, rest)) : rest.length < cs.length := by
  unfold setBody? at h
  split at h
  case h_3 => exact length_of_untilBracket h
  all_goals
    obtain ⟨⟨b, r⟩, hb, he⟩ := Option.map_eq_some_iff.1 h
    obtain ⟨-, rfl⟩ := Prod.mk.inj he
    have := length_of_untilBracket hb
    simp only [List.length_cons]
    omega

def wildItems : List Char → List WildItem
  | [] => []
  | '*' :: cs => .star :: wildItems cs
  | '?' :: cs => .one :: wildItems cs
  | '[' :: cs =>
    match h : setBody? cs with
    | some (body, rest) =>
      have := length_of_setBody? h
      .ofSet body :: wildItems rest
    | none => .char '[' :: wildItems cs
  | c :: cs => .char c :: wildItems cs
termination_by cs => cs.length

def ends : List α → List (List α)
  | [] => [[]]
  | a :: l => (a :: l) :: ends l

def wildMatch : List WildItem → List Char → Bool
  | [], cs => cs.isEmpty
  | .star :: ps, cs => (ends cs).any (wildMatch ps)
  | _ :: _, [] => false
  | p :: ps, c :: cs => p.accepts c && wildMatch ps cs

def matchesPattern (pattern name : String) : Bool :=
  wildMatch (wildItems pattern.toList) name.toList

def hasWildcard (s : String) : Bool := s.toList.any fun c => c == '*' || c == '?' || c == '['

end BeanCatalog.Text
