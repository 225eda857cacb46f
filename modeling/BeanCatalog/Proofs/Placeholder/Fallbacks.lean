import BeanCatalog.Environment.Basic
import BeanCatalog.Proofs.Placeholder.Outcome
import Mathlib.Data.Nat.Find

namespace BeanCatalog

/-- A text in which every brace that closes a placeholder closes one, and each that is opened is
closed. -/
inductive Nests : List Char → Prop
  | nil : Nests []
  | char {c : Char} {cs : List Char} (hc : c ≠ '}') (ho : c = '$' → cs.head? ≠ some '{')
      (h : Nests cs) : Nests (c :: cs)
  | placeholder {body cs : List Char} (hb : Nests body) (h : Nests cs) :
      Nests ('$' :: '{' :: body ++ '}' :: cs)

structure IsKey (key : List Char) : Prop where
  unopened : ¬ ['$', '{'] <:+: key
  unclosed : '}' ∉ key
  undivided : ':' ∉ key

section

variable {key rest : List Char}

theorem placeholderBody?_char {c : Char} {cs : List Char} (hc : c ≠ '}')
    (ho : c = '$' → cs.head? ≠ some '{') (depth : Nat) :
    placeholderBody? depth (c :: cs) =
      (placeholderBody? depth cs).map fun (body, rest) => (c :: body, rest) := by
  rw [placeholderBody?]
  · rintro ds rfl rfl
    exact ho rfl rfl
  · exact fun _ he => hc he
  · exact fun _ _ he => hc he

theorem placeholderBody?_nests {cs : List Char} (h : Nests cs) (depth : Nat) (rest : List Char) :
    placeholderBody? depth (cs ++ '}' :: rest) =
      (placeholderBody? depth ('}' :: rest)).map fun (body, after) => (cs ++ body, after) := by
  induction h generalizing depth rest with
  | nil => simp
  | @char c cs hc ho h ih =>
    have ho' : c = '$' → (cs ++ '}' :: rest).head? ≠ some '{' := by
      intro he
      cases cs with
      | nil => simp
      | cons d ds => exact ho he
    rw [List.cons_append, placeholderBody?_char hc ho', ih]
    cases placeholderBody? depth ('}' :: rest) <;> rfl
  | @placeholder body cs hb h ihb ih =>
    have hinner : placeholderBody? (depth + 1) (body ++ '}' :: (cs ++ '}' :: rest)) =
        (placeholderBody? depth ('}' :: rest)).map fun (b, after) =>
          (body ++ '}' :: (cs ++ b), after) := by
      rw [ihb, placeholderBody?, ih]
      cases placeholderBody? depth ('}' :: rest) <;> rfl
    have happend : '$' :: '{' :: body ++ '}' :: cs ++ '}' :: rest =
        '$' :: '{' :: (body ++ '}' :: (cs ++ '}' :: rest)) := by simp
    rw [happend, placeholderBody?, hinner]
    cases placeholderBody? depth ('}' :: rest) <;> simp

theorem IsKey.tail {c : Char} (h : IsKey (c :: key)) : IsKey key where
  unopened hi := h.unopened (hi.trans (List.suffix_cons c key).isInfix)
  unclosed hm := h.unclosed (List.mem_cons_of_mem c hm)
  undivided hm := h.undivided (List.mem_cons_of_mem c hm)

theorem IsKey.opens_not {c : Char} (h : IsKey (c :: key)) (hr : rest.head? ≠ some '{') (hc : c = '$') :
    (key ++ rest).head? ≠ some '{' := by
  subst hc
  cases key with
  | nil => exact hr
  | cons d ds =>
    intro hd
    obtain rfl : d = '{' := Option.some.inj hd
    exact h.unopened ⟨[], ds, rfl⟩

theorem nests_of_isKey (hk : IsKey key) (hr : rest.head? ≠ some '{') (h : Nests rest) :
    Nests (key ++ rest) := by
  induction key with
  | nil => exact h
  | cons c cs ih =>
    have hc : c ≠ '}' := fun he => hk.unclosed (he ▸ List.mem_cons_self)
    exact .char hc (hk.opens_not hr) (ih hk.tail)

theorem IsKey.nests (hk : IsKey key) : Nests key := by
  have hnests : Nests (key ++ []) := nests_of_isKey hk (by simp) .nil
  rwa [List.append_nil] at hnests

theorem ofChars_char {c : Char} {cs : List Char} (ho : c = '$' → cs.head? ≠ some '{') :
    Piece.ofChars (c :: cs) = Piece.glue c (Piece.ofChars cs) := by
  rw [Piece.ofChars]
  rintro ds rfl rfl
  exact ho rfl rfl

theorem splitDefault_key (hd : ':' ∉ key) : splitDefault key = (key, none) := by
  induction key with
  | nil => rfl
  | cons c cs ih =>
    have hc : c ≠ ':' := fun he => hd (he ▸ List.mem_cons_self)
    rw [splitDefault, ih fun hm => hd (List.mem_cons_of_mem c hm)]
    exact fun he => hc he

theorem splitDefault_divided (hd : ':' ∉ key) (fallback : List Char) :
    splitDefault (key ++ ':' :: fallback) = (key, some fallback) := by
  induction key with
  | nil => rfl
  | cons c cs ih =>
    have hc : c ≠ ':' := fun he => hd (he ▸ List.mem_cons_self)
    rw [List.cons_append, splitDefault, ih fun hm => hd (List.mem_cons_of_mem c hm)]
    exact fun he => hc he

variable {properties : Table String} {mode : PlaceholderMode}

theorem fillPiece_text {fillText : List (List Char) → List Char → Except PlaceholderError (List Char)}
    {visiting : List (List Char)} {text cs : List Char} (other : List Char) {piece : Piece}
    (h : fillPiece properties mode fillText visiting text piece = .ok cs) :
    fillPiece properties mode fillText visiting other piece = .ok cs := by
  cases piece with
  | literal ds => exact h
  | placeholder inner =>
    obtain ⟨body, hb, hv, hvalue, hnone⟩ := fillPiece_placeholder_ok.mp h
    refine fillPiece_placeholder_ok.mpr ⟨body, hb, hv, hvalue, fun hl => ?_⟩
    cases mode with
    | required => cases hnone hl
    | lenient => exact hnone hl

theorem fill_char {c : Char} {cs ds : List Char} (ho : c = '$' → cs.head? ≠ some '{') {depth : Nat}
    {visiting : List (List Char)} :
    fill properties mode (depth + 1) visiting (c :: cs) = .ok ds ↔
      ∃ es, ds = c :: es ∧ fill properties mode (depth + 1) visiting cs = .ok es := by
  rw [fill_succ, fill_succ, ofChars_char ho, mapM_fillPiece_glue]
  have hsame : ∀ parts, (Piece.ofChars cs).mapM
        (fillPiece properties mode (fill properties mode depth) visiting (c :: cs)) = .ok parts ↔
      (Piece.ofChars cs).mapM
        (fillPiece properties mode (fill properties mode depth) visiting cs) = .ok parts :=
    fun parts => ⟨mapM_ok fun _ _ h => fillPiece_text _ h, mapM_ok fun _ _ h => fillPiece_text _ h⟩
  cases hm : (Piece.ofChars cs).mapM
      (fillPiece properties mode (fill properties mode depth) visiting cs) with
  | ok parts =>
    rw [(hsame parts).mpr hm]
    simp [Functor.map, Except.map, eq_comm]
  | error err =>
    cases hm' : (Piece.ofChars cs).mapM
        (fillPiece properties mode (fill properties mode depth) visiting (c :: cs)) with
    | ok parts =>
      rw [(hsame parts).mp hm'] at hm
      cases hm
    | error err' => simp [Functor.map, Except.map]

theorem fill_key (hk : IsKey key) (hr : rest.head? ≠ some '{') {depth : Nat}
    {visiting : List (List Char)} {cs : List Char} :
    fill properties mode (depth + 1) visiting (key ++ rest) = .ok cs ↔
      ∃ ds, cs = key ++ ds ∧ fill properties mode (depth + 1) visiting rest = .ok ds := by
  induction key generalizing cs with
  | nil => simp
  | cons c key ih =>
    rw [List.cons_append, fill_char (hk.opens_not hr)]
    simp only [ih hk.tail]
    constructor
    · rintro ⟨es, rfl, ds, rfl, hd⟩
      exact ⟨ds, rfl, hd⟩
    · rintro ⟨ds, rfl, hd⟩
      exact ⟨_, rfl, ds, rfl, hd⟩

theorem fill_visited {value : List Char} {least : Nat}
    (hl : ∀ depth < least, ∀ visiting cs, fill properties mode depth visiting value ≠ .ok cs)
    {depth : Nat} (hd : depth ≤ least) {visiting more : List (List Char)} {text cs : List Char}
    (hm : ∀ body ∈ more, body ∈ visiting ∨ valueOf? properties body = some value)
    (h : fill properties mode depth visiting text = .ok cs) :
    fill properties mode depth more text = .ok cs := by
  induction depth generalizing visiting more text cs with
  | zero => cases h
  | succ depth ih =>
    have hpiece : ∀ piece out,
        fillPiece properties mode (fill properties mode depth) visiting text piece = .ok out →
          fillPiece properties mode (fill properties mode depth) more text piece = .ok out := by
      intro piece out hp
      cases piece with
      | literal ds => exact hp
      | placeholder inner =>
        obtain ⟨body, hb, hv, hvalue, hnone⟩ := fillPiece_placeholder_ok.mp hp
        -- the value itself is not filled in at this depth
        have hother : valueOf? properties body ≠ some value := fun hw =>
          hl depth hd _ _ (hvalue value hw)
        have hw : body ∉ more := fun hw => (hm body hw).elim hv hother
        refine fillPiece_placeholder_ok.mpr
          ⟨body, ih (Nat.le_of_succ_le hd) hm hb, hw, fun value' hv' => ?_, hnone⟩
        refine ih (Nat.le_of_succ_le hd) (fun b hb => ?_) (hvalue value' hv')
        rcases List.mem_cons.mp hb with rfl | hb
        · exact .inl List.mem_cons_self
        · exact (hm b hb).imp_left (List.mem_cons_of_mem _)
    rw [fill_succ] at h ⊢
    cases hp : (Piece.ofChars text).mapM
        (fillPiece properties mode (fill properties mode depth) visiting text) with
    | error err =>
      rw [hp] at h
      cases h
    | ok parts =>
      rw [hp] at h
      rwa [mapM_ok hpiece hp]

theorem Fills.visited {value cs : List Char} {visiting : List (List Char)}
    (h : Fills properties mode visiting value cs) {body : List Char}
    (hb : valueOf? properties body = some value) : Fills properties mode [body] value cs := by
  classical
  obtain ⟨depth, hd⟩ := h
  have hsome : ∃ depth, ∃ visiting ds, fill properties mode depth visiting value = .ok ds :=
    ⟨depth, visiting, cs, hd⟩
  -- at the least depth of all, the value cannot be met inside itself
  obtain ⟨visiting', ds, hleast⟩ := Nat.find_spec hsome
  have hl : ∀ depth < Nat.find hsome, ∀ visiting cs,
      fill properties mode depth visiting value ≠ .ok cs := by
    intro depth hlt visiting cs h
    exact Nat.find_min hsome hlt ⟨visiting, cs, h⟩
  have hfills : Fills properties mode [body] value ds := by
    refine ⟨Nat.find hsome, fill_visited hl le_rfl (fun b hm => .inr ?_) hleast⟩
    rw [List.mem_singleton.mp hm]
    exact hb
  have hds : ds = cs := Fills.unique ⟨_, hleast⟩ ⟨depth, hd⟩
  exact hds ▸ hfills

theorem fill_placeholder {inner : List Char} (hi : placeholderBody? 0 (inner ++ ['}']) = some (inner, []))
    (depth : Nat) (visiting : List (List Char)) :
    fill properties mode (depth + 1) visiting ('$' :: '{' :: (inner ++ ['}'])) =
      fillPiece properties mode (fill properties mode depth) visiting
        ('$' :: '{' :: (inner ++ ['}'])) (.placeholder inner) := by
  rw [fill_succ, Piece.ofChars_placeholder hi, Piece.ofChars, List.mapM_cons]
  cases fillPiece properties mode (fill properties mode depth) visiting
      ('$' :: '{' :: (inner ++ ['}'])) (.placeholder inner) with
  | error err => rfl
  | ok cs => exact congrArg Except.ok (List.append_nil cs)

theorem Fills.inside {inner cs : List Char}
    (hi : placeholderBody? 0 (inner ++ ['}']) = some (inner, []))
    (h : Fills properties mode [] ('$' :: '{' :: (inner ++ ['}'])) cs) :
    ∃ body, Fills properties mode [] inner body := by
  obtain ⟨depth, hd⟩ := h
  cases depth with
  | zero => cases hd
  | succ depth =>
    rw [fill_placeholder hi] at hd
    obtain ⟨body, hb, -⟩ := fillPiece_placeholder_ok.mp hd
    exact ⟨body, depth, hb⟩

theorem fills_placeholder {inner body value cs : List Char}
    (hi : placeholderBody? 0 (inner ++ ['}']) = some (inner, []))
    (hb : Fills properties mode [] inner body) (hv : valueOf? properties body = some value) :
    Fills properties mode [] ('$' :: '{' :: (inner ++ ['}'])) cs ↔
      Fills properties mode [body] value cs := by
  constructor
  · intro h
    obtain ⟨depth, hd⟩ := h
    cases depth with
    | zero => cases hd
    | succ depth =>
      rw [fill_placeholder hi] at hd
      obtain ⟨body', hb', -, hvalue, -⟩ := fillPiece_placeholder_ok.mp hd
      obtain rfl : body = body' := hb.unique ⟨depth, hb'⟩
      exact ⟨depth, hvalue value hv⟩
  · rintro ⟨n, hn⟩
    obtain ⟨m, hm⟩ := hb
    refine ⟨m + n + 1, ?_⟩
    rw [fill_placeholder hi]
    have hm' := fill_ok n (List.Subset.refl _) hm
    have hn' := fill_ok m (List.Subset.refl _) hn
    rw [Nat.add_comm] at hn'
    refine fillPiece_placeholder_ok.mpr ⟨body, hm', List.not_mem_nil, ?_, ?_⟩
    · intro value' hv'
      obtain rfl : value = value' := Option.some.inj (hv.symm.trans hv')
      exact hn'
    · intro hnone
      cases hv.symm.trans hnone

theorem resolved_iff {text s : String} {depth : Nat}
    (h : (resolvePlaceholders properties mode text depth).1 ≠ .error .tooDeep) :
    (resolvePlaceholders properties mode text depth).1 = .ok s ↔
      Fills properties mode [] text.toList s.toList := by
  rw [resolvePlaceholders_fst] at h ⊢
  constructor
  · intro hs
    refine ⟨depth, ?_⟩
    cases hf : fill properties mode depth [] text.toList with
    | error err =>
      rw [hf] at hs
      cases hs
    | ok cs =>
      rw [hf] at hs
      rw [← Except.ok.inj hs, String.toList_ofList]
  · intro hs
    have hne : fill properties mode depth [] text.toList ≠ .error .tooDeep := by
      intro he
      rw [he] at h
      exact h rfl
    rw [fill_eq_ok hs hne, Except.map, String.ofList_toList]

theorem exists_resolved_iff {text : String} :
    (∃ depth s, (resolvePlaceholders properties mode text depth).1 = .ok s) ↔
      ∃ cs, Fills properties mode [] text.toList cs := by
  constructor
  · rintro ⟨depth, s, hs⟩
    exact ⟨s.toList, (resolved_iff (by rw [hs]; nofun)).mp hs⟩
  · rintro ⟨cs, depth, hd⟩
    refine ⟨depth, String.ofList cs, ?_⟩
    rw [resolvePlaceholders_fst, hd]
    rfl

theorem fills_isKey (hk : IsKey key) : Fills properties mode [] key key := by
  refine ⟨1, ?_⟩
  have hempty : fill properties mode 1 [] [] = .ok [] := by
    rw [fill_succ, Piece.ofChars]
    rfl
  have hkey : fill properties mode 1 [] (key ++ []) = .ok (key ++ []) :=
    (fill_key hk (by simp)).mpr ⟨[], rfl, hempty⟩
  rwa [List.append_nil] at hkey

theorem fills_divided_iff (hk : IsKey key) {fallback body : List Char} :
    Fills properties mode [] (key ++ ':' :: fallback) body ↔
      ∃ ds, body = key ++ ':' :: ds ∧ Fills properties mode [] fallback ds := by
  have hcolon : ∀ depth, fill properties mode (depth + 1) [] (key ++ ':' :: fallback) = .ok body ↔
      ∃ ds, body = key ++ ':' :: ds ∧ fill properties mode (depth + 1) [] fallback = .ok ds := by
    intro depth
    rw [fill_key hk (by simp)]
    simp only [fill_char (show ':' = '$' → fallback.head? ≠ some '{' by simp)]
    constructor
    · rintro ⟨_, rfl, ds, rfl, hd⟩
      exact ⟨ds, rfl, hd⟩
    · rintro ⟨ds, rfl, hd⟩
      exact ⟨_, rfl, ds, rfl, hd⟩
  constructor
  · rintro ⟨_ | depth, hd⟩
    · cases hd
    · obtain ⟨ds, rfl, hds⟩ := (hcolon depth).mp hd
      exact ⟨ds, rfl, depth + 1, hds⟩
  · rintro ⟨ds, rfl, _ | depth, hd⟩
    · cases hd
    · exact ⟨depth + 1, (hcolon depth).mpr ⟨ds, rfl, hd⟩⟩

end

def placeholderText (body : String) : String := "$\x7b" ++ body ++ "\x7d"

theorem toList_placeholderText (body : String) :
    (placeholderText body).toList = '$' :: '{' :: (body.toList ++ ['}']) := by
  simp [placeholderText]

/-- A placeholder whose key has a value comes out the same with a default and without one, if and only
if the default can be filled in, or else the value cannot. -/
theorem default_ignored_iff {env : Environment} {mode : PlaceholderMode} {key fallback value : String}
    (hk : IsKey key.toList) (hv : env.properties.get? key = some value) (hf : Nests fallback.toList)
    {m n : Nat}
    (hm : (resolvePlaceholders env.properties mode (placeholderText key) m).1 ≠ .error .tooDeep)
    (hn : (resolvePlaceholders env.properties mode (placeholderText (key ++ ":" ++ fallback)) n).1 ≠
      .error .tooDeep) :
    (∀ s, (resolvePlaceholders env.properties mode (placeholderText (key ++ ":" ++ fallback)) n).1 =
          .ok s ↔ (resolvePlaceholders env.properties mode (placeholderText key) m).1 = .ok s) ↔
      (∃ depth s, (resolvePlaceholders env.properties mode fallback depth).1 = .ok s) ∨
        ∀ s, (resolvePlaceholders env.properties mode (placeholderText key) m).1 ≠ .ok s := by
  have htext : (key ++ ":" ++ fallback).toList = key.toList ++ ':' :: fallback.toList := by simp
  have hkeyBody : placeholderBody? 0 (key.toList ++ ['}']) = some (key.toList, []) := by
    rw [placeholderBody?_nests hk.nests]
    simp [placeholderBody?]
  have hbody : placeholderBody? 0 (key.toList ++ ':' :: fallback.toList ++ ['}']) =
      some (key.toList ++ ':' :: fallback.toList, []) := by
    have hnests := nests_of_isKey hk (by simp) (.char (c := ':') (by decide) (by simp) hf)
    rw [placeholderBody?_nests hnests]
    simp [placeholderBody?]
  have hkeyValue : valueOf? env.properties key.toList = some value.toList := by
    rw [valueOf?, splitDefault_key hk.undivided, String.ofList_toList, hv]
    rfl
  simp only [ne_eq, resolved_iff hm, resolved_iff hn, exists_resolved_iff, toList_placeholderText, htext,
    fills_placeholder hkeyBody (fills_isKey hk) hkeyValue]
  -- the default is filled in together with the key, before the key is looked up
  by_cases hd : ∃ ds, Fills env.properties mode [] fallback.toList ds
  · obtain ⟨ds, hds⟩ := hd
    have hvalue : valueOf? env.properties (key.toList ++ ':' :: ds) = some value.toList := by
      rw [valueOf?, splitDefault_divided hk.undivided, String.ofList_toList, hv]
      rfl
    have hfills := (fills_divided_iff hk).mpr ⟨ds, rfl, hds⟩
    simp only [fills_placeholder hbody hfills hvalue]
    have hsame : ∀ s : String, Fills env.properties mode [key.toList ++ ':' :: ds] value.toList s.toList ↔
        Fills env.properties mode [key.toList] value.toList s.toList := fun s =>
      ⟨fun h => h.visited hkeyValue, fun h => h.visited hvalue⟩
    exact iff_of_true hsame (.inl ⟨ds, hds⟩)
  · have hnone : ∀ s : String, ¬ Fills env.properties mode []
        ('$' :: '{' :: (key.toList ++ ':' :: fallback.toList ++ ['}'])) s.toList := by
      intro s hs
      obtain ⟨body, hb⟩ := hs.inside hbody
      obtain ⟨ds, -, hds⟩ := (fills_divided_iff hk).mp hb
      exact hd ⟨ds, hds⟩
    simp only [hnone, hd, false_iff, false_or]

def hostEnvironment : Environment :=
  ⟨[], Environment.standardDefaults, [("k", "<$\x7bhost\x7d>"), ("host", "h"), ("b", "c")]⟩

theorem nests_nestedDefault : Nests "$\x7ba:$\x7bb\x7d\x7d.".toList := by
  have hb : Nests ('$' :: '{' :: ['b'] ++ '}' :: []) :=
    .placeholder (IsKey.nests ⟨by decide, by decide, by decide⟩) .nil
  have hab : Nests ('a' :: ':' :: ('$' :: '{' :: ['b'] ++ '}' :: [])) :=
    .char (by decide) (by decide) (.char (by decide) (by decide) hb)
  exact .placeholder hab (.char (by decide) (by decide) .nil)

theorem nestedDefault_ignored :
    (resolvePlaceholders hostEnvironment.properties .lenient (placeholderText "k") 9).1 = .ok "<h>" ∧
      ∀ s, (resolvePlaceholders hostEnvironment.properties .lenient
          (placeholderText ("k" ++ ":" ++ "$\x7ba:$\x7bb\x7d\x7d.")) 9).1 = .ok s ↔
        (resolvePlaceholders hostEnvironment.properties .lenient (placeholderText "k") 9).1 = .ok s := by
  have hk : IsKey "k".toList := ⟨by decide, by decide, by decide⟩
  have hv : hostEnvironment.properties.get? "k" = some "<$\x7bhost\x7d>" := by decide
  have hplain : (resolvePlaceholders hostEnvironment.properties .lenient (placeholderText "k") 9).1 =
      .ok "<h>" := by decide +kernel
  have hends : (resolvePlaceholders hostEnvironment.properties .lenient
      (placeholderText ("k" ++ ":" ++ "$\x7ba:$\x7bb\x7d\x7d.")) 9).1 ≠ .error .tooDeep := by
    decide +kernel
  have hdefault : (resolvePlaceholders hostEnvironment.properties .lenient
      "$\x7ba:$\x7bb\x7d\x7d." 9).1 = .ok "c." := by decide +kernel
  refine ⟨hplain, ?_⟩
  exact (default_ignored_iff hk hv nests_nestedDefault (by rw [hplain]; nofun) hends).mpr
    (.inl ⟨9, "c.", hdefault⟩)

theorem faultyDefault_not_ignored : IsKey "k".toList ∧
    hostEnvironment.properties.get? "k" = some "<$\x7bhost\x7d>" ∧
      Nests "$\x7bmissing\x7d".toList ∧
        hostEnvironment.resolveRequired (placeholderText "k") = .ok "<h>" ∧
          hostEnvironment.resolveRequired
              (placeholderText ("k" ++ ":" ++ "$\x7bmissing\x7d")) =
            .error (.unresolved "missing" "k:$\x7bmissing\x7d") := by
  have hmissing : Nests "missing".toList := IsKey.nests ⟨by decide, by decide, by decide⟩
  have hdefault : Nests "$\x7bmissing\x7d".toList := .placeholder hmissing .nil
  refine ⟨⟨by decide, by decide, by decide⟩, by decide, hdefault, by decide +kernel, by decide +kernel⟩

end BeanCatalog
