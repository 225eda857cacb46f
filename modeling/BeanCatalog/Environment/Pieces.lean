namespace BeanCatalog

inductive Piece where
  | literal (cs : List Char)
  | placeholder (body : List Char)
  deriving DecidableEq, Repr

/-- The body of a placeholder and what follows its closing brace, `depth` placeholders deep. -/
def placeholderBody? : (depth : Nat) → List Char → Option (List Char × List Char)
  | _, [] => none
  | 0, '}' :: cs => some ([], cs)
  | depth + 1, '}' :: cs => (placeholderBody? depth cs).map fun (body, rest) => ('}' :: body, rest)
  | depth, '$' :: '{' :: cs =>
    (placeholderBody? (depth + 1) cs).map fun (body, rest) => ('$' :: '{' :: body, rest)
  | depth, c :: cs => (placeholderBody? depth cs).map fun (body, rest) => (c :: body, rest)

theorem length_of_placeholderBody? {depth : Nat} {cs body rest : List Char}
    (h : placeholderBody? depth cs = some (body, rest)) : rest.length < cs.length := by
  fun_induction placeholderBody? depth cs generalizing body with
  | case1 => simp at h
  | case2 => simp_all
  | case3 depth cs ih | case4 depth cs ih | case5 depth c cs _ _ _ ih =>
    obtain ⟨⟨b, r⟩, hb, he⟩ := Option.map_eq_some_iff.1 h
    obtain ⟨-, rfl⟩ := Prod.mk.inj he
    have := ih hb
    simp only [List.length_cons]
    omega

theorem eq_of_placeholderBody? {depth : Nat} {cs body rest : List Char}
    (h : placeholderBody? depth cs = some (body, rest)) : cs = body ++ '}' :: rest := by
  fun_induction placeholderBody? depth cs generalizing body with
  | case1 => simp at h
  | case2 => simp_all
  | case3 depth cs ih | case4 depth cs ih | case5 depth c cs _ _ _ ih =>
    obtain ⟨⟨b, r⟩, hb, he⟩ := Option.map_eq_some_iff.1 h
    obtain ⟨rfl, rfl⟩ := Prod.mk.inj he
    rw [ih hb]
    rfl

theorem placeholderBody?_replicate {c : Char} (hc : c ≠ '}' ∧ c ≠ '$') (depth n : Nat)
    (cs : List Char) :
    placeholderBody? depth (List.replicate n c ++ cs) =
      (placeholderBody? depth cs).map fun (body, rest) => (List.replicate n c ++ body, rest) := by
  induction n with
  | zero => simp
  | succ n ih =>
    rw [List.replicate_succ, List.cons_append, placeholderBody?, ih]
    · cases placeholderBody? depth cs <;> simp
    all_goals simp_all

namespace Piece

def chars : Piece → List Char
  | .literal cs => cs
  | .placeholder body => '$' :: '{' :: body ++ ['}']

def glue (c : Char) : List Piece → List Piece
  | .literal cs :: ps => .literal (c :: cs) :: ps
  | ps => .literal [c] :: ps

/-- A placeholder that is never closed leaves the rest of the text literal. -/
def ofChars : List Char → List Piece
  | [] => []
  | '$' :: '{' :: cs =>
    match h : placeholderBody? 0 cs with
    | some (body, rest) =>
      have := length_of_placeholderBody? h
      .placeholder body :: ofChars rest
    | none => [.literal ('$' :: '{' :: cs)]
  | c :: cs => glue c (ofChars cs)
termination_by cs => cs.length
decreasing_by all_goals simp_all <;> omega

theorem ofChars_placeholder {cs body rest : List Char}
    (h : placeholderBody? 0 cs = some (body, rest)) :
    ofChars ('$' :: '{' :: cs) = .placeholder body :: ofChars rest := by
  rw [ofChars]
  split <;> simp_all

theorem ofChars_cons {c : Char} (hc : c ≠ '$') (cs : List Char) :
    ofChars (c :: cs) = glue c (ofChars cs) := by
  rw [ofChars]
  intro _ h
  simp_all

theorem flatMap_chars_glue (c : Char) (ps : List Piece) :
    (glue c ps).flatMap chars = c :: ps.flatMap chars := by
  unfold glue
  split <;> simp [chars]

theorem flatMap_chars_ofChars (cs : List Char) : (ofChars cs).flatMap chars = cs := by
  fun_induction ofChars cs with
  | case1 => rfl
  | case2 cs body rest h _ ih =>
    rw [List.flatMap_cons, ih, eq_of_placeholderBody? h]
    simp [chars]
  | case3 cs _ => simp [chars]
  | case4 c cs _ ih => rw [flatMap_chars_glue, ih]

end Piece

end BeanCatalog
