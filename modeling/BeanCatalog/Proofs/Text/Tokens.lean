import BeanCatalog.Text.Tokens
import Mathlib.Data.List.Basic

namespace BeanCatalog.Text

structure IsToken (ds cs : List Char) : Prop where
  ne_nil : cs ≠ []
  front : ∀ c ∈ cs.head?, isBlank c = false
  back : ∀ c ∈ cs.getLast?, isBlank c = false
  unbroken : ∀ c ∈ cs, c ∉ ds

def IsPadding (ds cs : List Char) : Prop := ∀ c ∈ cs, c ∈ ds ∨ isBlank c = true

structure IsSeparator (ds cs : List Char) : Prop where
  padding : IsPadding ds cs
  delimiter : ∃ c ∈ cs, c ∈ ds

def joined : List (List Char × List Char) → List Char → List Char
  | [], trail => trail
  | (gap, token) :: rest, trail => gap ++ (token ++ joined rest trail)

/-- Tokens with separators between them. In front of the first and behind the last there may be padding
without a delimiter, or nothing. -/
structure Joining (ds : List Char) where
  gapped : List (List Char × List Char)
  trail : List Char
  isToken : ∀ g ∈ gapped, IsToken ds g.2
  lead : ∀ g ∈ gapped.head?, IsPadding ds g.1
  between : ∀ g ∈ gapped.tail, IsSeparator ds g.1
  padding : IsPadding ds trail

namespace Joining

variable {ds : List Char}

def text (j : Joining ds) : String := String.ofList (joined j.gapped j.trail)

def tokens (j : Joining ds) : List String := j.gapped.map fun g => String.ofList g.2

end Joining

-- All characters there are could be run through as well, and a check is to run over those of the text only.
instance (ds cs : List Char) : Decidable (IsPadding ds cs) :=
  decidable_of_iff (cs.all fun c => c ∈ ds || isBlank c) (by simp [IsPadding])

instance (ds cs : List Char) : Decidable (IsSeparator ds cs) :=
  decidable_of_iff (IsPadding ds cs ∧ cs.any (· ∈ ds))
    ⟨fun h => ⟨h.1, by simpa using h.2⟩, fun h => ⟨h.1, by simpa using h.2⟩⟩

instance (ds cs : List Char) : Decidable (IsToken ds cs) :=
  decidable_of_iff (cs ≠ [] ∧ cs.head?.all (!isBlank ·) ∧ cs.getLast?.all (!isBlank ·) ∧ cs.all (· ∉ ds))
    ⟨fun h => ⟨h.1, by simpa [Option.all_eq_true] using h.2.1, by simpa [Option.all_eq_true] using h.2.2.1,
        by simpa using h.2.2.2⟩,
      fun h => ⟨h.ne_nil, by simpa [Option.all_eq_true] using h.front,
        by simpa [Option.all_eq_true] using h.back, by simpa using h.unbroken⟩⟩

section

variable {ds cs gap token sep trail : List Char} {c d : Char}

theorem stripChars_cons (hc : isBlank c = true) : stripChars (c :: cs) = stripChars cs := by
  rw [stripChars, List.dropWhile_cons_of_pos hc, stripChars]

theorem dropWhile_unblank (h : ∀ c ∈ cs.head?, isBlank c = false) : cs.dropWhile isBlank = cs := by
  cases cs with
  | nil => rfl
  | cons c cs =>
    apply List.dropWhile_cons_of_neg
    simp [h c rfl]

theorem IsToken.strip_append (ht : IsToken ds token) (hw : ∀ c ∈ gap, isBlank c = true) :
    stripChars (token ++ gap) = token := by
  have hfront : (token ++ gap).dropWhile isBlank = token ++ gap := by
    apply dropWhile_unblank
    rw [List.head?_append_of_ne_nil _ ht.ne_nil]
    exact ht.front
  have hback : token.reverse.dropWhile isBlank = token.reverse := by
    apply dropWhile_unblank
    rw [List.head?_reverse]
    exact ht.back
  rw [stripChars, hfront, List.reverse_append, List.dropWhile_append_of_pos, hback,
    List.reverse_reverse]
  simpa using hw

theorem splitAny_eq_splitOnP (ds cs : List Char) : splitAny ds cs = cs.splitOnP (· ∈ ds) := by
  induction cs with
  | nil => rfl
  | cons c cs ih =>
    rw [splitAny, List.splitOnP_cons_eq_if_modifyHead, ← ih]
    by_cases hc : c ∈ ds
    · simp [hc]
    · cases h : splitAny ds cs with
      | nil => exact absurd h (splitAny_ne_nil ds cs)
      | cons run runs => simp [hc]

theorem tokensOf_append_delimiter (hd : d ∈ ds) (front rest : List Char) :
    tokensOf ds (front ++ d :: rest) = tokensOf ds front ++ tokensOf ds rest := by
  have hp : decide (d ∈ ds) = true := by simp [hd]
  simp only [tokensOf, splitAny_eq_splitOnP]
  rw [List.splitOnP_append_cons front rest hp, List.map_append, List.filter_append]

theorem tokensOf_undelimited (h : ∀ c ∈ cs, c ∉ ds) :
    tokensOf ds cs = [stripChars cs].filter (· ≠ []) := by
  rw [tokensOf, splitAny_eq_splitOnP, List.splitOnP_eq_singleton, List.map_singleton]
  simpa using h

theorem tokensOf_nil : tokensOf ds [] = [] := by
  rw [tokensOf_undelimited (List.forall_mem_nil _)]
  rfl

theorem tokensOf_cons_padding (h : c ∈ ds ∨ isBlank c = true) :
    tokensOf ds (c :: cs) = tokensOf ds cs := by
  by_cases hd : c ∈ ds
  · have hparts := tokensOf_append_delimiter hd [] cs
    rwa [tokensOf_nil] at hparts
  · have hc : isBlank c = true := h.resolve_left hd
    have hp : ¬ decide (c ∈ ds) = true := by simp [hd]
    simp only [tokensOf, splitAny_eq_splitOnP]
    rw [List.splitOnP_cons_eq_if_modifyHead, if_neg hp]
    cases cs.splitOnP (· ∈ ds) with
    | nil => rfl
    | cons run runs => rw [List.modifyHead_cons, List.map_cons, stripChars_cons hc, List.map_cons]

theorem IsPadding.tokensOf_append (h : IsPadding ds gap) :
    tokensOf ds (gap ++ cs) = tokensOf ds cs := by
  induction gap with
  | nil => rfl
  | cons c gap ih =>
    obtain ⟨hc, hgap⟩ := List.forall_mem_cons.mp h
    rw [List.cons_append, tokensOf_cons_padding hc, ih hgap]

theorem IsPadding.tokensOf_eq_nil (h : IsPadding ds gap) : tokensOf ds gap = [] := by
  rw [← List.append_nil gap, h.tokensOf_append, tokensOf_nil]

theorem IsSeparator.split (h : IsSeparator ds sep) : ∃ blanks d rest, sep = blanks ++ d :: rest ∧
    d ∈ ds ∧ (∀ c ∈ blanks, isBlank c = true ∧ c ∉ ds) ∧ IsPadding ds rest := by
  obtain ⟨c, hc, hcd⟩ := h.delimiter
  have hfound : (sep.find? (· ∈ ds)).isSome := by
    rw [List.find?_isSome]
    exact ⟨c, hc, by simp [hcd]⟩
  obtain ⟨d, hfind⟩ := Option.isSome_iff_exists.mp hfound
  obtain ⟨hd, blanks, rest, rfl, hfirst⟩ := List.find?_eq_some_iff_append.mp hfind
  refine ⟨blanks, d, rest, rfl, by simpa using hd, fun c hc => ?_, fun c hc => ?_⟩
  · have hcd : c ∉ ds := by simpa using hfirst c hc
    exact ⟨(h.padding c (List.mem_append_left _ hc)).resolve_left hcd, hcd⟩
  · exact h.padding c (List.mem_append_right _ (List.mem_cons_of_mem _ hc))

theorem IsToken.tokensOf_blanks (ht : IsToken ds token)
    (hw : ∀ c ∈ gap, isBlank c = true ∧ c ∉ ds) : tokensOf ds (token ++ gap) = [token] := by
  rw [tokensOf_undelimited, ht.strip_append fun c hc => (hw c hc).1]
  · simp [ht.ne_nil]
  · rw [List.forall_mem_append]
    exact ⟨ht.unbroken, fun c hc => (hw c hc).2⟩

theorem IsToken.tokensOf_separator (ht : IsToken ds token) (hs : IsSeparator ds sep)
    (cs : List Char) : tokensOf ds (token ++ (sep ++ cs)) = token :: tokensOf ds cs := by
  obtain ⟨blanks, d, rest, rfl, hd, hblanks, hrest⟩ := hs.split
  calc
    tokensOf ds (token ++ ((blanks ++ d :: rest) ++ cs)) =
        tokensOf ds ((token ++ blanks) ++ d :: (rest ++ cs)) := by
        simp only [List.append_assoc, List.cons_append]
    _ = tokensOf ds (token ++ blanks) ++ tokensOf ds (rest ++ cs) := tokensOf_append_delimiter hd _ _
    _ = token :: tokensOf ds cs := by
        rw [ht.tokensOf_blanks hblanks, hrest.tokensOf_append, List.singleton_append]

theorem IsToken.tokensOf_padding (ht : IsToken ds token) (hp : IsPadding ds gap) :
    tokensOf ds (token ++ gap) = [token] := by
  by_cases hd : ∃ c ∈ gap, c ∈ ds
  · have hparts := ht.tokensOf_separator ⟨hp, hd⟩ []
    rwa [List.append_nil, tokensOf_nil] at hparts
  · have hfree : ∀ c ∈ gap, c ∉ ds := fun c hc hcd => hd ⟨c, hc, hcd⟩
    exact ht.tokensOf_blanks fun c hc => ⟨(hp c hc).resolve_left (hfree c hc), hfree c hc⟩

theorem IsToken.tokensOf_joined {rest : List (List Char × List Char)} (ht : IsToken ds token)
    (hr : ∀ g ∈ rest, IsSeparator ds g.1 ∧ IsToken ds g.2) (hp : IsPadding ds trail) :
    tokensOf ds (token ++ joined rest trail) = token :: rest.map Prod.snd := by
  -- The trail only ends the last token; each separator ends the token in front of it and leaves the next
  -- one at the beginning of what is still to be read.
  induction rest generalizing token with
  | nil => exact ht.tokensOf_padding hp
  | cons g rest ih =>
    obtain ⟨⟨hs, hnext⟩, hrest⟩ := List.forall_mem_cons.mp hr
    rw [joined, ht.tokensOf_separator hs, ih hnext hrest, List.map_cons]

theorem isToken_singleton (hd : c ∉ ds) (hb : isBlank c = false) : IsToken ds [c] :=
  ⟨List.cons_ne_nil c [], by simpa using hb, by simpa using hb, by simpa using hd⟩

theorem IsToken.cons (ht : IsToken ds token) (hd : c ∉ ds) (hb : isBlank c = false)
    (hgap : ∀ d ∈ gap, d ∉ ds) : IsToken ds (c :: (gap ++ token)) where
  ne_nil := List.cons_ne_nil _ _
  front := by simpa using hb
  back := by
    rw [← List.cons_append, List.getLast?_append_of_ne_nil _ ht.ne_nil]
    exact ht.back
  unbroken := by
    rw [List.forall_mem_cons, List.forall_mem_append]
    exact ⟨hd, hgap, ht.unbroken⟩

theorem IsPadding.cons (hc : c ∈ ds ∨ isBlank c = true) (h : IsPadding ds gap) :
    IsPadding ds (c :: gap) :=
  List.forall_mem_cons.mpr ⟨hc, h⟩

end

namespace Joining

variable {ds : List Char} {c : Char}

theorem tokensOf_joined (j : Joining ds) :
    tokensOf ds (joined j.gapped j.trail) = j.gapped.map Prod.snd := by
  obtain ⟨gapped, trail, htoken, hlead, hbetween, hpadding⟩ := j
  cases gapped with
  | nil => exact hpadding.tokensOf_eq_nil
  | cons g rest =>
    obtain ⟨ht, hrest⟩ := List.forall_mem_cons.mp htoken
    have hgap : IsPadding ds g.1 := hlead g rfl
    dsimp only
    rw [joined, hgap.tokensOf_append, List.map_cons]
    exact ht.tokensOf_joined (fun g hg => ⟨hbetween g hg, hrest g hg⟩) hpadding

theorem tokenize_text {delimiters : String} (j : Joining delimiters.toList) :
    tokenize j.text delimiters = j.tokens := by
  rw [tokenize, text, String.toList_ofList, j.tokensOf_joined, List.map_map]
  rfl

theorem exists_padded (j : Joining ds) (hc : c ∈ ds ∨ isBlank c = true) :
    ∃ j' : Joining ds, joined j'.gapped j'.trail = c :: joined j.gapped j.trail := by
  obtain ⟨gapped, trail, htoken, hlead, hbetween, hpadding⟩ := j
  cases gapped with
  | nil => exact ⟨⟨[], c :: trail, htoken, hlead, hbetween, hpadding.cons hc⟩, rfl⟩
  | cons g rest =>
    obtain ⟨ht, hrest⟩ := List.forall_mem_cons.mp htoken
    have hgap : IsPadding ds (c :: g.1) := (hlead g rfl).cons hc
    exact ⟨⟨(c :: g.1, g.2) :: rest, trail, List.forall_mem_cons.mpr ⟨ht, hrest⟩, by simpa using hgap,
      hbetween, hpadding⟩, rfl⟩

theorem exists_grown (j : Joining ds) (hd : c ∉ ds) (hb : isBlank c = false) :
    ∃ j' : Joining ds, joined j'.gapped j'.trail = c :: joined j.gapped j.trail := by
  obtain ⟨gapped, trail, htoken, hlead, hbetween, hpadding⟩ := j
  have hnone : IsPadding ds [] := List.forall_mem_nil _
  cases gapped with
  | nil =>
    refine ⟨⟨[([], [c])], trail, ?_, ?_, hbetween, hpadding⟩, rfl⟩
    · simpa using isToken_singleton hd hb
    · simpa using hnone
  | cons g rest =>
    obtain ⟨ht, hrest⟩ := List.forall_mem_cons.mp htoken
    by_cases hgap : ∃ d ∈ g.1, d ∈ ds
    · have hsep : IsSeparator ds g.1 := ⟨hlead g rfl, hgap⟩
      refine ⟨⟨([], [c]) :: g :: rest, trail, ?_, ?_, ?_, hpadding⟩, rfl⟩
      · exact List.forall_mem_cons.mpr ⟨isToken_singleton hd hb, htoken⟩
      · simpa using hnone
      · exact List.forall_mem_cons.mpr ⟨hsep, hbetween⟩
    · -- The gap holds white space only, and comes to stand inside the token.
      have hgap : ∀ d ∈ g.1, d ∉ ds := fun d hm hd => hgap ⟨d, hm, hd⟩
      refine ⟨⟨([], c :: (g.1 ++ g.2)) :: rest, trail, ?_, ?_, hbetween, hpadding⟩, ?_⟩
      · exact List.forall_mem_cons.mpr ⟨ht.cons hd hb hgap, hrest⟩
      · simpa using hnone
      · simp [joined]

theorem exists_joined (ds cs : List Char) :
    ∃ j : Joining ds, joined j.gapped j.trail = cs := by
  -- From the end of the text to its front, where each character goes to the first gap or token.
  induction cs with
  | nil => exact ⟨⟨[], [], by simp, by simp, by simp, List.forall_mem_nil _⟩, rfl⟩
  | cons c cs ih =>
    obtain ⟨j, rfl⟩ := ih
    by_cases hc : c ∈ ds ∨ isBlank c = true
    · exact j.exists_padded hc
    · rw [not_or, Bool.not_eq_true] at hc
      exact j.exists_grown hc.1 hc.2

theorem exists_text (ds : List Char) (s : String) : ∃ j : Joining ds, j.text = s := by
  obtain ⟨j, hj⟩ := exists_joined ds s.toList
  exact ⟨j, by rw [text, hj, String.ofList_toList]⟩

theorem isToken_of_mem {j : Joining ds} {token : String} (h : token ∈ j.tokens) :
    IsToken ds token.toList := by
  obtain ⟨g, hg, rfl⟩ := List.mem_map.mp h
  rw [String.toList_ofList]
  exact j.isToken g hg

end Joining

theorem tokenize_eq_iff {s delimiters : String} {tokens : List String} :
    tokenize s delimiters = tokens ↔
      ∃ j : Joining delimiters.toList, j.text = s ∧ j.tokens = tokens := by
  constructor
  · rintro rfl
    obtain ⟨j, rfl⟩ := Joining.exists_text delimiters.toList s
    exact ⟨j, rfl, j.tokenize_text.symm⟩
  · rintro ⟨j, rfl, rfl⟩
    exact j.tokenize_text

theorem isToken_of_mem_tokenize {s delimiters token : String} (h : token ∈ tokenize s delimiters) :
    IsToken delimiters.toList token.toList := by
  obtain ⟨j, -, hj⟩ := tokenize_eq_iff.mp (rfl : tokenize s delimiters = _)
  rw [← hj] at h
  exact Joining.isToken_of_mem h

theorem tokenize_ne_empty {s delimiters token : String} (h : token ∈ tokenize s delimiters) :
    token ≠ "" := by
  rintro rfl
  exact (isToken_of_mem_tokenize h).ne_nil rfl

theorem tokenize_blank {s : String} (delimiters : String) (hs : allBlank s = true) :
    tokenize s delimiters = [] := by
  have hpadding : IsPadding delimiters.toList s.toList :=
    fun c hc => .inr (List.all_eq_true.mp hs c hc)
  rw [tokenize, hpadding.tokensOf_eq_nil, List.map_nil]

/-- A text is taken apart into tokens, and tokens that are joined come out of the text again as they went
in. -/
theorem tokenize_joining (delimiters : String) :
    (∀ s, ∀ token ∈ tokenize s delimiters, IsToken delimiters.toList token.toList) ∧
      ∀ j : Joining delimiters.toList, tokenize j.text delimiters = j.tokens :=
  ⟨fun _ _ h => isToken_of_mem_tokenize h, fun j => j.tokenize_text⟩

example : tokenize "dev, test;;qa" = ["dev", "test", "qa"] := by decide +kernel

def mixedJoining : Joining ",;".toList where
  gapped := [("\t;".toList, "dev".toList), (" ,\n;".toList, "big test".toList), (";".toList, "qa".toList)]
  trail := " , ".toList
  isToken := by decide +kernel
  lead := by decide +kernel
  between := by decide +kernel
  padding := by decide +kernel

theorem mixedJoining_tokenized :
    mixedJoining.text = "\t;dev ,\n;big test;qa , " ∧
      tokenize mixedJoining.text ",;" = ["dev", "big test", "qa"] ∧
        "big test" ∈ tokenize mixedJoining.text ",;" ∧ IsToken ",;".toList "big test".toList := by
  have htokens : tokenize mixedJoining.text ",;" = ["dev", "big test", "qa"] :=
    (tokenize_joining ",;").2 mixedJoining
  have hmem : "big test" ∈ tokenize mixedJoining.text ",;" := by simp [htokens]
  exact ⟨by decide +kernel, htokens, hmem, (tokenize_joining ",;").1 _ _ hmem⟩

end BeanCatalog.Text
