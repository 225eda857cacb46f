import BeanCatalog.Url.Percent
import Mathlib.Data.List.Basic

namespace BeanCatalog

namespace Text.Utf8

theorem run_cons (state : State) (b : UInt8) (bs : List UInt8) :
    run state (b :: bs) = (step state b.toNat).1 ++ run (step state b.toNat).2 bs := by
  cases state <;> rfl

theorem step_last {b low high bits : Nat} (h : low ≤ b ∧ b ≤ high) :
    step (.within 0 low high bits) b = ([some (Char.ofNat (bits * 64 + (b - 0x80)))], .start) := by
  rw [step, if_pos h]

theorem step_more {b owed low high bits : Nat} (h : low ≤ b ∧ b ≤ high) :
    step (.within (owed + 1) low high bits) b =
      ([], .within owed 0x80 0xBF (bits * 64 + (b - 0x80))) := by
  rw [step, if_pos h]

section

variable {owed low high bits n : Nat} (hlow : low ≤ n + 128) (hhigh : n + 128 ≤ high) (hn : n < 128)
include hlow hhigh hn

theorem run_last (bs : List UInt8) :
    run (.within 0 low high bits) (UInt8.ofNat (n + 128) :: bs) =
      some (Char.ofNat (bits * 64 + n)) :: run .start bs := by
  rw [run_cons, UInt8.toNat_ofNat_of_lt' (show _ < 256 by omega), step_last ⟨hlow, hhigh⟩, Nat.add_sub_cancel,
    List.singleton_append]

theorem run_more (bs : List UInt8) :
    run (.within (owed + 1) low high bits) (UInt8.ofNat (n + 128) :: bs) =
      run (.within owed 0x80 0xBF (bits * 64 + n)) bs := by
  rw [run_cons, UInt8.toNat_ofNat_of_lt' (show _ < 256 by omega), step_more ⟨hlow, hhigh⟩, Nat.add_sub_cancel, List.nil_append]

end

theorem run_first {n : Nat} (hn : n < 256) (bs : List UInt8) :
    run .start (UInt8.ofNat n :: bs) = (first n).1 ++ run (first n).2 bs := by
  rw [run_cons, UInt8.toNat_ofNat_of_lt' hn]
  rfl

theorem first_two {n : Nat} (hlow : 2 ≤ n) (hhigh : n ≤ 0x1F) :
    first (n + 192) = ([], .within 0 0x80 0xBF n) := by
  rw [first, if_neg (by omega), if_pos (by omega), Nat.add_sub_cancel]

theorem first_three {n : Nat} (hn : n ≤ 0xF) :
    first (n + 224) =
      ([], .within 1 (if n = 0 then 0xA0 else 0x80) (if n = 0xD then 0x9F else 0xBF) n) := by
  unfold first
  grind

theorem first_four {n : Nat} (hn : n ≤ 4) :
    first (n + 240) =
      ([], .within 2 (if n = 0 then 0x90 else 0x80) (if n = 4 then 0x8F else 0xBF) n) := by
  unfold first
  grind

theorem run_utf8EncodeChar (c : Char) (bs : List UInt8) :
    run .start (String.utf8EncodeChar c ++ bs) = some c :: run .start bs := by
  have hc : Char.ofNat c.val.toNat = c := Char.ofNat_toNat c
  have hvalid : c.val.toNat < 0xD800 ∨ 0xDFFF < c.val.toNat ∧ c.val.toNat < 0x110000 := c.valid
  unfold String.utf8EncodeChar
  generalize c.val.toNat = v at hc hvalid
  dsimp only
  split
  case isTrue hone =>
    rw [List.singleton_append, run_first (by omega), first, if_pos hone, hc]
    rfl
  case isFalse hone =>
  split
  case isTrue htwo =>
    have hv : v / 64 % 32 * 64 + v % 64 = v := by omega
    simp only [List.cons_append, List.nil_append]
    rw [run_first (by omega), first_two (by omega) (by omega), List.nil_append,
      run_last (by omega) (by omega) (by omega), hv, hc]
  case isFalse htwo =>
  split
  case isTrue hthree =>
    have hv : (v / 4096 % 16 * 64 + v / 64 % 64) * 64 + v % 64 = v := by omega
    simp only [List.cons_append, List.nil_append]
    rw [run_first (by omega), first_three (by omega), List.nil_append,
      run_more (by split <;> omega) (by split <;> omega) (by omega),
      run_last (by omega) (by omega) (by omega), hv, hc]
  case isFalse hthree =>
    have hv : ((v / 262144 % 8 * 64 + v / 4096 % 64) * 64 + v / 64 % 64) * 64 + v % 64 = v := by
      omega
    simp only [List.cons_append, List.nil_append]
    rw [run_first (by omega), first_four (by omega), List.nil_append,
      run_more (by split <;> omega) (by split <;> omega) (by omega),
      run_more (by omega) (by omega) (by omega), run_last (by omega) (by omega) (by omega), hv, hc]

theorem toNat_of_mem_utf8EncodeChar {c : Char} {b : UInt8} (hb : b ∈ String.utf8EncodeChar c)
    (hascii : b.toNat < 128) : c.toNat = b.toNat := by
  change c.val.toNat = b.toNat
  have hmod (n : Nat) : (UInt8.ofNat n).toNat = n % 256 := UInt8.toNat_ofNat'
  unfold String.utf8EncodeChar at hb
  generalize c.val.toNat = v at hb
  dsimp only at hb
  split at hb
  case isTrue =>
    rw [List.mem_singleton.mp hb, hmod]
    omega
  case isFalse =>
    -- Every byte of a longer character has its high bit set.
    split at hb
    case isTrue => grind
    case isFalse => split at hb <;> grind

theorem decodeLossy_flatMap (cs : List Char) :
    decodeLossy (cs.flatMap String.utf8EncodeChar) = cs := by
  have hrun : run .start (cs.flatMap String.utf8EncodeChar) = cs.map some := by
    induction cs with
    | nil => rfl
    | cons c cs ih => rw [List.flatMap_cons, run_utf8EncodeChar, ih, List.map_cons]
  rw [decodeLossy, decode, hrun, List.map_map]
  exact List.map_id cs

end Text.Utf8

namespace Percent

variable {pending : List UInt8} {cs : List Char}

theorem decodeFrom_ascii_cons {c : Char} (hne : c ≠ '%') (hc : c.toNat < 128) :
    decodeFrom pending (c :: cs) = decodeFrom (c.toNat.toUInt8 :: pending) cs := by
  rw [decodeFrom, if_pos hc]
  exact fun a b rest he => absurd he hne

theorem decodeFrom_beyond_cons {c : Char} (hc : ¬c.toNat < 128) :
    decodeFrom pending (c :: cs) = Text.Utf8.decodeLossy pending.reverse ++ c :: decodeFrom [] cs := by
  rw [decodeFrom, if_neg hc]
  rintro a b rest rfl
  exact absurd (by decide) hc

theorem hexValue?_digit : ∀ n < 16, hexValue? (Nat.digitChar n).toUpper = some n := by decide

theorem plain_byte : ∀ n < 256, isPlain (UInt8.ofNat n) = true →
    n < 128 ∧ Char.ofNat n ≠ '%' ∧ (Char.ofNat n).toNat = n := by
  decide +kernel

theorem decodeFrom_encodeByte (b : UInt8) :
    decodeFrom pending (encodeByte b ++ cs) = decodeFrom (b :: pending) cs := by
  have hb : b.toNat < 256 := b.toNat_lt
  unfold encodeByte
  split
  · next hplain =>
    rw [← UInt8.ofNat_toNat (x := b)] at hplain
    obtain ⟨hascii, hne, htoNat⟩ := plain_byte b.toNat hb hplain
    rw [List.singleton_append, decodeFrom_ascii_cons hne (by omega), htoNat,
      Nat.toUInt8, UInt8.ofNat_toNat]
  · have hvalue : b.toNat / 16 * 16 + b.toNat % 16 = b.toNat := by omega
    simp only [List.cons_append, List.nil_append]
    rw [decodeFrom, hexValue?_digit _ (by omega), hexValue?_digit _ (by omega)]
    dsimp only
    rw [hvalue, Nat.toUInt8, UInt8.ofNat_toNat]

theorem decodeFrom_escapes (bytes : List UInt8) :
    decodeFrom pending (bytes.flatMap encodeByte ++ cs) = decodeFrom (bytes.reverse ++ pending) cs := by
  induction bytes generalizing pending with
  | nil => rfl
  | cons b bytes ih =>
    rw [List.flatMap_cons, List.append_assoc, decodeFrom_encodeByte, ih, List.reverse_cons,
      List.append_assoc, List.singleton_append]

theorem decodeFrom_literal (hcs : '%' ∉ cs) (front : List Char) :
    decodeFrom (front.flatMap String.utf8EncodeChar).reverse cs = front ++ cs := by
  induction cs generalizing front with
  | nil =>
    rw [decodeFrom, List.reverse_reverse, Text.Utf8.decodeLossy_flatMap, List.append_nil]
  | cons c cs ih =>
    have hne : c ≠ '%' := fun he => hcs (he ▸ List.mem_cons_self)
    have hrest : '%' ∉ cs := fun hm => hcs (List.mem_cons_of_mem c hm)
    by_cases hc : c.toNat < 128
    · have hbyte : String.utf8EncodeChar c = [c.toNat.toUInt8] := by
        have hle : c.val.toNat ≤ 127 := Nat.le_of_lt_succ hc
        rw [String.utf8EncodeChar, if_pos hle]
        rfl
      have hmore := ih hrest (front ++ [c])
      rw [List.flatMap_append, List.flatMap_singleton, hbyte, List.reverse_append] at hmore
      rw [decodeFrom_ascii_cons hne hc]
      exact hmore.trans (List.append_assoc front [c] cs)
    · rw [decodeFrom_beyond_cons hc, List.reverse_reverse, Text.Utf8.decodeLossy_flatMap]
      exact congrArg (front ++ c :: ·) (ih hrest [])

theorem decode_encode_append {front rest : String} (h : '%' ∉ rest.toList) :
    decode (encode front ++ rest) = front ++ rest := by
  have hread := decodeFrom_literal h front.toList
  rw [decode, encode, String.toList_append, String.toList_ofList, decodeFrom_escapes, Text.Utf8.encode,
    List.append_nil, hread, String.ofList_append, String.ofList_toList, String.ofList_toList]

theorem decode_plain {s : String} (h : '%' ∉ s.toList) : decode s = s := by
  have hread : decode (encode "" ++ s) = "" ++ s := decode_encode_append h
  rw [String.empty_append] at hread
  exact hread.trans String.empty_append

def occurs (c : Char) : Bool :=
  c.isAlphanum || c == '_' || c == '.' || c == '-' || c == '~' || c == '/' || c == '%'

theorem occurs_encodeByte : ∀ n < 256, (encodeByte (UInt8.ofNat n)).all occurs = true := by
  decide +kernel

theorem occurs_of_mem_encode {s : String} {c : Char} (h : c ∈ (encode s).toList) :
    occurs c = true := by
  rw [encode, String.toList_ofList] at h
  obtain ⟨b, -, hb⟩ := List.mem_flatMap.mp h
  have hall := occurs_encodeByte b.toNat b.toNat_lt
  rw [UInt8.ofNat_toNat] at hall
  exact List.all_eq_true.mp hall c hb

theorem slash_encodeByte : ∀ n < 256, '/' ∈ encodeByte (UInt8.ofNat n) → n = 0x2F := by
  decide +kernel

theorem slash_not_mem_encode {s : String} (h : '/' ∉ s.toList) : '/' ∉ (encode s).toList := by
  intro hm
  rw [encode, String.toList_ofList] at hm
  obtain ⟨b, hb, hslash⟩ := List.mem_flatMap.mp hm
  obtain ⟨c, hc, hbyte⟩ := List.mem_flatMap.mp hb
  rw [← UInt8.ofNat_toNat (x := b)] at hslash
  have hvalue := slash_encodeByte b.toNat b.toNat_lt hslash
  have hc' : c.toNat = '/'.toNat :=
    (Text.Utf8.toNat_of_mem_utf8EncodeChar hbyte (by omega)).trans hvalue
  exact h (Char.toNat_inj.mp hc' ▸ hc)

theorem encode_append (s t : String) : encode (s ++ t) = encode s ++ encode t := by
  simp [encode, Text.Utf8.encode, String.ofList_append]

end Percent

end BeanCatalog
