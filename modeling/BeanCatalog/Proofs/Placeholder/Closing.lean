import BeanCatalog.Proofs.Placeholder.Fallbacks
import Mathlib.Order.Bounds.Defs

namespace BeanCatalog

/-- The place of the brace that leaves a text from a place on, so many placeholders deep. -/
def leavingBrace? (text : List Char) (depth place : Nat) : Option Nat :=
  (placeholderBody? depth (text.drop place)).map fun (body, _) => place + body.length

def placeholderEnd? (text : List Char) (start : Nat) : Option Nat := leavingBrace? text 0 (start + 2)

/-- A brace stands at the place, and from the opening of the placeholder to it placeholders nest. -/
structure ClosedAt (text : List Char) (start place : Nat) : Prop where
  behind : start + 2 ≤ place
  brace : text[place]? = some '}'
  nests : Nests ((text.take place).drop (start + 2))

/-- A scan from a place on, with so many placeholders open, and the place that it comes to. A brace closes
one of them and ends the scan where none is open. The scan ends with the text, too. -/
inductive Scans (text : List Char) : (depth place : Nat) → Option Nat → Prop
  | leaves {depth place : Nat} (h : text[place]? = none) : Scans text depth place none
  | finds {place : Nat} (h : text[place]? = some '}') : Scans text 0 place (some place)
  | closes {depth place : Nat} {found : Option Nat} (h : text[place]? = some '}')
      (hs : Scans text depth (place + 1) found) : Scans text (depth + 1) place found
  | opens {depth place : Nat} {found : Option Nat} (h : text[place]? = some '$')
      (hb : text[place + 1]? = some '{') (hs : Scans text (depth + 1) (place + 2) found) :
      Scans text depth place found
  | passes {depth place : Nat} {found : Option Nat} {c : Char} (h : text[place]? = some c)
      (hc : c ≠ '}') (ho : c = '$' → text[place + 1]? ≠ some '{')
      (hs : Scans text depth (place + 1) found) : Scans text depth place found

inductive NestsBut : (depth : Nat) → List Char → Prop
  | last {cs : List Char} (h : Nests cs) : NestsBut 0 cs
  | more {depth : Nat} {cs rest : List Char} (h : Nests cs) (hr : NestsBut depth rest) :
      NestsBut (depth + 1) (cs ++ '}' :: rest)

section

variable {text cs body rest : List Char} {depth start place : Nat} {c : Char} {found : Option Nat}

theorem Nests.char_before (h : Nests cs) (hc : c ≠ '}')
    (ho : c = '$' → (cs ++ rest).head? ≠ some '{') : Nests (c :: cs) := by
  refine .char hc (fun he hd => ho he ?_) h
  rw [List.head?_append, hd]
  rfl

namespace NestsBut

theorem char (h : NestsBut depth body) (hc : c ≠ '}') (ho : c = '$' → body.head? ≠ some '{') :
    NestsBut depth (c :: body) := by
  cases h with
  | last h => exact .last (.char hc ho h)
  | more h hr => exact .more (h.char_before hc ho) hr

theorem placeholder (hb : Nests cs) (h : NestsBut depth body) :
    NestsBut depth ('$' :: '{' :: cs ++ '}' :: body) := by
  cases h with
  | last h => exact .last (.placeholder hb h)
  | @more depth first rest h hr =>
    have hsplit : '$' :: '{' :: cs ++ '}' :: (first ++ '}' :: rest) =
        ('$' :: '{' :: cs ++ '}' :: first) ++ '}' :: rest := by simp
    rw [hsplit]
    exact .more (.placeholder hb h) hr

end NestsBut

theorem nestsBut_of_placeholderBody? (h : placeholderBody? depth cs = some (body, rest)) :
    NestsBut depth body := by
  fun_induction placeholderBody? depth cs generalizing body with
  | case1 => cases h
  | case2 cs =>
    cases h
    exact .last .nil
  | case3 depth cs ih =>
    obtain ⟨⟨b, r⟩, hb, he⟩ := Option.map_eq_some_iff.mp h
    obtain ⟨rfl, rfl⟩ := Prod.mk.inj he
    exact .more .nil (ih hb)
  | case4 depth cs ih =>
    obtain ⟨⟨b, r⟩, hb, he⟩ := Option.map_eq_some_iff.mp h
    obtain ⟨rfl, rfl⟩ := Prod.mk.inj he
    cases ih hb with
    | more hinner hrest => exact .placeholder hinner hrest
  | case5 depth c cs hzero hsucc hopen ih =>
    obtain ⟨⟨b, r⟩, hb, he⟩ := Option.map_eq_some_iff.mp h
    obtain ⟨rfl, rfl⟩ := Prod.mk.inj he
    have hc : c ≠ '}' := by
      rintro rfl
      cases depth with
      | zero => exact hzero rfl rfl
      | succ depth => exact hsucc depth rfl rfl
    refine (ih hb).char hc fun hd hhead => ?_
    cases b with
    | nil => cases hhead
    | cons d ds =>
      obtain rfl : d = '{' := Option.some.inj hhead
      exact hopen _ hd (eq_of_placeholderBody? hb)

theorem placeholderBody?_eq_some_iff :
    placeholderBody? 0 cs = some (body, rest) ↔ Nests body ∧ cs = body ++ '}' :: rest := by
  constructor
  · intro h
    cases nestsBut_of_placeholderBody? h with
    | last hnests => exact ⟨hnests, eq_of_placeholderBody? h⟩
  · rintro ⟨hnests, rfl⟩
    simp [placeholderBody?_nests hnests, placeholderBody?]

theorem closedAt_iff : ClosedAt text start place ↔
    ∃ body rest, Nests body ∧ text.drop (start + 2) = body ++ '}' :: rest ∧
      start + 2 + body.length = place := by
  constructor
  · rintro ⟨hbehind, hbrace, hnests⟩
    obtain ⟨hlt, hget⟩ := List.getElem?_eq_some_iff.mp hbrace
    have hlength : (text.take place).length = place := List.length_take_of_le hlt.le
    have hdrop : text.drop place = '}' :: text.drop (place + 1) := by
      rw [List.drop_eq_getElem_cons hlt, hget]
    refine ⟨_, text.drop (place + 1), hnests, ?_, ?_⟩
    · rw [← hdrop, ← List.drop_append_of_le_length (by omega), List.take_append_drop]
    · rw [List.length_drop]
      omega
  · rintro ⟨body, rest, hnests, hsplit, rfl⟩
    refine ⟨by omega, ?_, ?_⟩
    · rw [← List.getElem?_drop, hsplit, List.getElem?_append_right le_rfl, Nat.sub_self]
      rfl
    · rw [List.drop_take, hsplit, Nat.add_sub_cancel_left, List.take_left]
      exact hnests

theorem placeholderEnd?_eq_some_iff : placeholderEnd? text start = some place ↔
    ClosedAt text start place := by
  rw [closedAt_iff, placeholderEnd?, leavingBrace?, Option.map_eq_some_iff, Prod.exists]
  simp only [placeholderBody?_eq_some_iff, and_assoc]

theorem ClosedAt.isLeast_iff :
    IsLeast {place | ClosedAt text start place} place ↔ ClosedAt text start place := by
  refine ⟨And.left, fun h => ⟨h, fun other ho => ?_⟩⟩
  have he : some place = some other :=
    (placeholderEnd?_eq_some_iff.mpr h).symm.trans (placeholderEnd?_eq_some_iff.mpr ho)
  exact (Option.some.inj he).le

theorem drop_of_getElem? (h : text[place]? = some c) :
    text.drop place = c :: text.drop (place + 1) := by
  obtain ⟨hlt, rfl⟩ := List.getElem?_eq_some_iff.mp h
  exact List.drop_eq_getElem_cons hlt

theorem leavingBrace?_leaves (h : text[place]? = none) : leavingBrace? text depth place = none := by
  rw [leavingBrace?, List.drop_eq_nil_of_le (List.getElem?_eq_none_iff.mp h), placeholderBody?]
  rfl

theorem leavingBrace?_finds (h : text[place]? = some '}') :
    leavingBrace? text 0 place = some place := by
  rw [leavingBrace?, drop_of_getElem? h, placeholderBody?]
  rfl

theorem map_place (found : Option (List Char × List Char)) (front : List Char) (place : Nat) :
    (found.map fun (body, rest) => (front ++ body, rest)).map (fun (body, _) => place + body.length) =
      found.map fun (body, _) => place + front.length + body.length := by
  cases found with
  | none => rfl
  | some split =>
    simp only [Option.map_some, List.length_append, Nat.add_assoc]

theorem leavingBrace?_closes (h : text[place]? = some '}') :
    leavingBrace? text (depth + 1) place = leavingBrace? text depth (place + 1) := by
  rw [leavingBrace?, drop_of_getElem? h, placeholderBody?]
  exact map_place _ ['}'] place

theorem leavingBrace?_opens (h : text[place]? = some '$') (hb : text[place + 1]? = some '{') :
    leavingBrace? text depth place = leavingBrace? text (depth + 1) (place + 2) := by
  rw [leavingBrace?, drop_of_getElem? h, drop_of_getElem? hb, placeholderBody?]
  exact map_place _ ['$', '{'] place

theorem leavingBrace?_passes (h : text[place]? = some c) (hc : c ≠ '}')
    (ho : c = '$' → text[place + 1]? ≠ some '{') :
    leavingBrace? text depth place = leavingBrace? text depth (place + 1) := by
  have hhead : c = '$' → (text.drop (place + 1)).head? ≠ some '{' := by rwa [List.head?_drop]
  rw [leavingBrace?, drop_of_getElem? h, placeholderBody?_char hc hhead]
  exact map_place _ [c] place

theorem scans_leavingBrace? (text : List Char) (depth place : Nat) :
    Scans text depth place (leavingBrace? text depth place) := by
  -- Each step goes one place or two towards the end of the text.
  induction hleft : text.length - place using Nat.strong_induction_on generalizing depth place with
  | _ left ih =>
    cases h : text[place]? with
    | none =>
      rw [leavingBrace?_leaves h]
      exact .leaves h
    | some c =>
      obtain ⟨hlt, -⟩ := List.getElem?_eq_some_iff.mp h
      by_cases hc : c = '}'
      · subst hc
        cases depth with
        | zero =>
          rw [leavingBrace?_finds h]
          exact .finds h
        | succ depth =>
          rw [leavingBrace?_closes h]
          exact .closes h (ih _ (by omega) depth (place + 1) rfl)
      by_cases ho : c = '$' ∧ text[place + 1]? = some '{'
      · obtain ⟨rfl, hb⟩ := ho
        rw [leavingBrace?_opens h hb]
        exact .opens h hb (ih _ (by omega) (depth + 1) (place + 2) rfl)
      · have ho : c = '$' → text[place + 1]? ≠ some '{' := fun hd hb => ho ⟨hd, hb⟩
        rw [leavingBrace?_passes h hc ho]
        exact .passes h hc ho (ih _ (by omega) depth (place + 1) rfl)

theorem scans_iff : Scans text depth place found ↔ leavingBrace? text depth place = found := by
  constructor
  · intro hs
    induction hs with
    | leaves h => exact leavingBrace?_leaves h
    | finds h => exact leavingBrace?_finds h
    | closes h _ ih => exact (leavingBrace?_closes h).trans ih
    | opens h hb _ ih => exact (leavingBrace?_opens h hb).trans ih
    | passes h hc ho _ ih => exact (leavingBrace?_passes h hc ho).trans ih
  · rintro rfl
    exact scans_leavingBrace? text depth place

end

/-- The scan for the end of a placeholder ends, and always comes to the same: to the first place that closes
the placeholder or, if there is none, to nothing. -/
theorem placeholderEnd?_closes (text : List Char) (start : Nat) :
    (∀ found, Scans text 0 (start + 2) found ↔ placeholderEnd? text start = found) ∧
      (∀ place, placeholderEnd? text start = some place ↔
        IsLeast {place | ClosedAt text start place} place) ∧
      (placeholderEnd? text start = none ↔ ∀ place, ¬ ClosedAt text start place) := by
  refine ⟨fun found => scans_iff, fun place => ?_, ?_⟩
  · rw [ClosedAt.isLeast_iff, placeholderEnd?_eq_some_iff]
  · simp only [← placeholderEnd?_eq_some_iff, Option.eq_none_iff_forall_ne_some, ne_eq]

example : placeholderEnd? "$\x7b$$\x7ba\x7d\x7b\x7d\x7d".toList 0 = some 8 := by decide

end BeanCatalog
