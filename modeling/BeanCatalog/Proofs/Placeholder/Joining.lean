import BeanCatalog.Proofs.Placeholder.Fallbacks

namespace BeanCatalog

/-- What a placeholder fails for, apart from the text that it stands in. -/
inductive PlaceholderFault where
  | circular (body : String)
  | unresolved (key : String)
  | tooDeep
  deriving DecidableEq, Repr

def PlaceholderError.fault : PlaceholderError → PlaceholderFault
  | .circular body _ => .circular body
  | .unresolved key _ => .unresolved key
  | .tooDeep => .tooDeep

/-- A text in which a body and its closing brace follow wherever a placeholder is opened. -/
def ClosesAll (text : List Char) : Prop :=
  ∀ front back, text = front ++ '$' :: '{' :: back →
    ∃ body rest, Nests body ∧ back = body ++ '}' :: rest

/-- The end of one text and the beginning of the next open a placeholder together. -/
def OpensAcross (s t : List Char) : Prop := s.getLast? = some '$' ∧ t.head? = some '{'

section

variable {s t : List Char}

theorem ClosesAll.of_append {front : List Char} (h : ClosesAll (front ++ s)) : ClosesAll s := by
  intro before back hs
  apply h (front ++ before)
  rw [hs, List.append_assoc]

theorem OpensAcross.append (front : List Char) (h : OpensAcross s t) : OpensAcross (front ++ s) t := by
  refine ⟨?_, h.2⟩
  rw [List.getLast?_append, h.1]
  rfl

theorem ClosesAll.opened {cs : List Char} (h : ClosesAll ('$' :: '{' :: cs)) :
    ∃ body rest, placeholderBody? 0 cs = some (body, rest) := by
  obtain ⟨body, rest, hnests, rfl⟩ := h [] cs rfl
  refine ⟨body, rest, ?_⟩
  rw [placeholderBody?_nests hnests]
  simp [placeholderBody?]

theorem placeholderBody?_append {depth : Nat} {cs body rest : List Char} (t : List Char)
    (h : placeholderBody? depth cs = some (body, rest)) :
    placeholderBody? depth (cs ++ t) = some (body, rest ++ t) := by
  fun_induction placeholderBody? depth cs generalizing body with
  | case1 => cases h
  | case2 cs =>
    cases h
    rfl
  | case3 depth cs ih | case4 depth cs ih =>
    obtain ⟨⟨b, r⟩, hb, he⟩ := Option.map_eq_some_iff.1 h
    obtain ⟨rfl, rfl⟩ := Prod.mk.inj he
    simp only [List.cons_append, placeholderBody?, ih hb, Option.map_some]
  | case5 depth c cs hzero hsucc hopen ih =>
    obtain ⟨⟨b, r⟩, hb, he⟩ := Option.map_eq_some_iff.1 h
    obtain ⟨rfl, rfl⟩ := Prod.mk.inj he
    have hc : c ≠ '}' := by
      rintro rfl
      cases depth with
      | zero => exact hzero rfl rfl
      | succ depth => exact hsucc depth rfl rfl
    have ho : c = '$' → (cs ++ t).head? ≠ some '{' := by
      intro he
      cases cs with
      | nil => simp [placeholderBody?] at hb
      | cons d ds => exact fun hd => hopen ds he (by rw [← Option.some.inj hd])
    rw [List.cons_append, placeholderBody?_char hc ho, ih hb]
    rfl

variable {properties : Table String} {mode : PlaceholderMode}

theorem fillPiece_fault
    (fillText : List (List Char) → List Char → Except PlaceholderError (List Char))
    (visiting : List (List Char)) (text other : List Char) (piece : Piece) :
    (fillPiece properties mode fillText visiting text piece).mapError PlaceholderError.fault =
      (fillPiece properties mode fillText visiting other piece).mapError PlaceholderError.fault := by
  cases piece with
  | literal cs => rfl
  | placeholder inner =>
    cases hb : fillText visiting inner with
    | error err => simp [fillPiece, hb, bind, Except.bind]
    | ok body =>
      simp only [fillPiece, hb, bind, Except.bind]
      by_cases hv : body ∈ visiting
      · simp [hv, Except.mapError, PlaceholderError.fault]
      · simp only [List.contains_iff_mem, hv, if_false]
        cases valueOf? properties body with
        | some value => rfl
        | none => cases mode <;> rfl

theorem mapError_bind {ε ε' α β : Type} (h : ε → ε') (act : Except ε α) (next : α → Except ε β) :
    (act >>= next).mapError h = act.mapError h >>= fun a => (next a).mapError h := by
  cases act <;> rfl

theorem mapError_mapM {ε ε' α β : Type} (h : ε → ε') (f : α → Except ε β) (l : List α) :
    (l.mapM f).mapError h = l.mapM fun a => (f a).mapError h := by
  induction l with
  | nil => rfl
  | cons a l ih =>
    simp only [List.mapM_cons, mapError_bind, ih]
    rfl

variable (properties mode) in
def fillPieces (depth : Nat) (visiting : List (List Char)) (ps : List Piece) :
    Except PlaceholderFault (List Char) :=
  List.flatten <$> ps.mapM fun piece =>
    (fillPiece properties mode (fill properties mode depth) visiting [] piece).mapError
      PlaceholderError.fault

theorem fill_fault (depth : Nat) (visiting : List (List Char)) (text : List Char) :
    (fill properties mode (depth + 1) visiting text).mapError PlaceholderError.fault =
      fillPieces properties mode depth visiting (Piece.ofChars text) := by
  unfold fillPieces
  simp only [← fillPiece_fault _ _ text []]
  rw [← mapError_mapM, fill_succ]
  cases (Piece.ofChars text).mapM
    (fillPiece properties mode (fill properties mode depth) visiting text) <;> rfl

theorem fillPieces_cons (depth : Nat) (visiting : List (List Char)) (piece : Piece)
    (ps : List Piece) :
    fillPieces properties mode depth visiting (piece :: ps) = (do
      let a ← fillPieces properties mode depth visiting [piece]
      let b ← fillPieces properties mode depth visiting ps
      pure (a ++ b)) := by
  simp [fillPieces]

theorem fillPieces_literal (depth : Nat) (visiting : List (List Char)) (cs : List Char)
    (ps : List Piece) :
    fillPieces properties mode depth visiting (.literal cs :: ps) =
      (cs ++ ·) <$> fillPieces properties mode depth visiting ps := by
  have hone : fillPieces properties mode depth visiting [.literal cs] = .ok cs :=
    congrArg Except.ok (List.append_nil cs)
  rw [fillPieces_cons, hone]
  cases fillPieces properties mode depth visiting ps <;> rfl

theorem fillPieces_glue (depth : Nat) (visiting : List (List Char)) (c : Char) (ps : List Piece) :
    fillPieces properties mode depth visiting (Piece.glue c ps) =
      (c :: ·) <$> fillPieces properties mode depth visiting ps := by
  unfold Piece.glue
  split
  · simp [fillPieces_literal]
  · simp [fillPieces_literal]

theorem fillPieces_append (depth : Nat) (visiting : List (List Char)) (hs : ClosesAll s)
    (hb : ¬ OpensAcross s t) :
    fillPieces properties mode depth visiting (Piece.ofChars (s ++ t)) = (do
      let a ← fillPieces properties mode depth visiting (Piece.ofChars s)
      let b ← fillPieces properties mode depth visiting (Piece.ofChars t)
      pure (a ++ b)) := by
  fun_induction Piece.ofChars s with
  | case1 => simp [fillPieces]
  | case2 cs body rest h _ ih =>
    have hrest : '$' :: '{' :: cs = '$' :: '{' :: body ++ ['}'] ++ rest := by
      rw [eq_of_placeholderBody? h]
      simp
    rw [hrest] at hs hb
    rw [List.cons_append, List.cons_append, Piece.ofChars_placeholder (placeholderBody?_append t h),
      fillPieces_cons, fillPieces_cons _ _ _ (Piece.ofChars rest),
      ih hs.of_append fun ha => hb (ha.append _)]
    simp only [bind_assoc, pure_bind, List.append_assoc]
  | case3 cs h =>
    obtain ⟨body, rest, hbody⟩ := hs.opened
    rw [h] at hbody
    cases hbody
  | case4 c cs h ih =>
    have ho : c = '$' → (cs ++ t).head? ≠ some '{' := by
      rintro rfl
      cases cs with
      | nil => exact fun ht => hb ⟨rfl, ht⟩
      | cons d ds => exact fun hd => h ds rfl (by rw [← Option.some.inj hd])
    have htail : ClosesAll cs := ClosesAll.of_append (show ClosesAll ([c] ++ cs) from hs)
    rw [List.cons_append, ofChars_char ho, fillPieces_glue, fillPieces_glue,
      ih htail fun ha => hb (ha.append [c])]
    simp

end

/-- A text behind one in which every placeholder is closed is filled in as it is by itself: the results
are joined, and the first placeholder to fail is the same. -/
theorem resolution_append (properties : Table String) (mode : PlaceholderMode) {s t : String}
    (hs : ClosesAll s.toList) (hb : ¬ OpensAcross s.toList t.toList) (depth : Nat) :
    (resolvePlaceholders properties mode (s ++ t) depth).1.mapError PlaceholderError.fault = (do
      let a ← (resolvePlaceholders properties mode s depth).1.mapError PlaceholderError.fault
      let b ← (resolvePlaceholders properties mode t depth).1.mapError PlaceholderError.fault
      pure (a ++ b)) := by
  have hcommute : ∀ act : Except PlaceholderError (List Char),
      (act.map String.ofList).mapError PlaceholderError.fault =
        String.ofList <$> act.mapError PlaceholderError.fault := by
    intro act
    cases act <;> rfl
  simp only [resolvePlaceholders_fst, hcommute]
  cases depth with
  | zero => rfl
  | succ depth =>
    rw [fill_fault, fill_fault, fill_fault, String.toList_append, fillPieces_append depth [] hs hb]
    simp [String.ofList_append]

theorem closesAll_stray : ClosesAll "\x7d$\x7bk\x7d$".toList := by
  intro front back h
  match front with
  | [brace] =>
    obtain ⟨-, rfl⟩ : '}' = brace ∧ ['k', '}', '$'] = back := by simpa using h
    exact ⟨['k'], ['$'], IsKey.nests ⟨by decide, by decide, by decide⟩, rfl⟩
  | [] | [_, _] | [_, _, _] | [_, _, _, _] | [_, _, _, _, _] | _ :: _ :: _ :: _ :: _ :: _ :: _ =>
    simp at h

theorem repeatedKey_joined :
    ClosesAll "\x7d$\x7bk\x7d$".toList ∧
      ¬ OpensAcross "\x7d$\x7bk\x7d$".toList "$\x7bk:$\x7bk\x7d\x7d".toList ∧
        (resolvePlaceholders hostEnvironment.properties .required
            ("\x7d$\x7bk\x7d$" ++ "$\x7bk:$\x7bk\x7d\x7d") 9).1.mapError PlaceholderError.fault =
          .ok "\x7d<h>$<h>" := by
  have hacross : ¬ OpensAcross "\x7d$\x7bk\x7d$".toList "$\x7bk:$\x7bk\x7d\x7d".toList := by
    rintro ⟨-, hopens⟩
    cases hopens
  refine ⟨closesAll_stray, hacross, ?_⟩
  rw [resolution_append _ _ closesAll_stray hacross]
  decide +kernel

end BeanCatalog
