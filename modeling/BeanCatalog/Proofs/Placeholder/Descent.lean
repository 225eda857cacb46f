import BeanCatalog.Proofs.Placeholder.Outcome
import Mathlib.Data.Set.Card
import Mathlib.Data.Set.Finite.Lattice
import Mathlib.Data.Set.Finite.List
import Mathlib.Data.List.Sublists
import Mathlib.Order.WellFounded

/-!
Which resolutions end. A resolution descends into the bodies of placeholders and into what the
resolved bodies stand for. Bodies that stand for values of properties are met again before long and
refused, but a default is spelt by its body anew each time.
-/

namespace BeanCatalog

abbrev Pending := List (List Char) × List Char

inductive Descent where
  | body
  | value
  | fallback
  deriving DecidableEq

section

variable (properties : Table String) (mode : PlaceholderMode)

def ComesTo (visiting : List (List Char)) (text inner : List Char) : Prop :=
  ∃ front back, Piece.ofChars text = front ++ .placeholder inner :: back ∧
    ∀ piece ∈ front, ∃ depth cs,
      fillPiece properties mode (fill properties mode depth) visiting text piece = .ok cs

inductive Descends : Descent → Pending → Pending → Prop
  | body {visiting text inner} (h : ComesTo properties mode visiting text inner) :
      Descends .body (visiting, text) (visiting, inner)
  | value {visiting text inner body value} (h : ComesTo properties mode visiting text inner)
      (hb : Fills properties mode visiting inner body) (hv : body ∉ visiting)
      (hp : properties.get? (String.ofList (splitDefault body).1) = some value) :
      Descends .value (visiting, text) (body :: visiting, value.toList)
  | fallback {visiting text inner body rest} (h : ComesTo properties mode visiting text inner)
      (hb : Fills properties mode visiting inner body) (hv : body ∉ visiting)
      (hp : properties.get? (String.ofList (splitDefault body).1) = none)
      (hd : (splitDefault body).2 = some rest) :
      Descends .fallback (visiting, text) (body :: visiting, rest)

/-- A descent without end that, from some point on, falls back on defaults and never again on the
value of a property. -/
def FallsForever (p : Pending) : Prop :=
  ∃ (chain : ℕ → Pending) (kind : ℕ → Descent), chain 0 = p ∧
    (∀ n, Descends properties mode (kind n) (chain n) (chain (n + 1))) ∧
    ∃ start, ∀ n, start ≤ n → kind n ≠ .value

end

section

variable {properties : Table String} {mode : PlaceholderMode}

theorem fillPiece_visited {depth : Nat} {visiting : List (List Char)} {text inner : List Char}
    {body value : List Char} (hb : Fills properties mode visiting inner body) (hv : body ∉ visiting)
    (hl : valueOf? properties body = some value)
    (h : fill properties mode depth (body :: visiting) value = .error .tooDeep) :
    fillPiece properties mode (fill properties mode depth) visiting text (.placeholder inner) =
      .error .tooDeep := by
  by_cases hi : fill properties mode depth visiting inner = .error .tooDeep
  · simp [fillPiece, hi, bind, Except.bind]
  · simp [fillPiece, fill_eq_ok hb hi, hv, hl, h, bind, Except.bind]

theorem fill_tooDeep_of_comesTo {depth : Nat} {visiting : List (List Char)} {text inner : List Char}
    (hc : ComesTo properties mode visiting text inner)
    (h : fillPiece properties mode (fill properties mode depth) visiting text (.placeholder inner) =
      .error .tooDeep) :
    fill properties mode (depth + 1) visiting text = .error .tooDeep := by
  obtain ⟨front, back, ht, hf⟩ := hc
  have hall : (Piece.ofChars text).mapM
      (fillPiece properties mode (fill properties mode depth) visiting text) = .error .tooDeep := by
    rw [ht]
    refine mapM_tooDeep (fun piece hm => ?_) h
    obtain ⟨n, cs, hn⟩ := hf piece hm
    by_cases hd : fillPiece properties mode (fill properties mode depth) visiting text piece =
        .error .tooDeep
    · exact .inl hd
    · refine .inr ⟨cs, ?_⟩
      rw [← fillPiece_deeper n hd, Nat.add_comm]
      exact fillPiece_ok (List.Subset.refl _) (fun _ _ _ _ hs hi => fill_ok depth hs hi) hn
  rw [fill_succ, hall]
  rfl

theorem fill_tooDeep_of_descends {kind : Descent} {p q : Pending} {depth : Nat}
    (h : Descends properties mode kind p q)
    (hq : fill properties mode depth q.1 q.2 = .error .tooDeep) :
    fill properties mode (depth + 1) p.1 p.2 = .error .tooDeep := by
  cases h with
  | body hc =>
    refine fill_tooDeep_of_comesTo hc ?_
    simp only at hq
    simp [fillPiece, hq, bind, Except.bind]
  | value hc hb hv hp =>
    refine fill_tooDeep_of_comesTo hc (fillPiece_visited hb hv ?_ hq)
    simp [valueOf?, hp]
  | fallback hc hb hv hp hd =>
    refine fill_tooDeep_of_comesTo hc (fillPiece_visited hb hv ?_ hq)
    simp [valueOf?, hp, hd]

theorem mapM_ends {visiting : List (List Char)} {text : List Char}
    (h : ∀ inner, ComesTo properties mode visiting text inner → ∃ depth,
      fillPiece properties mode (fill properties mode depth) visiting text (.placeholder inner) ≠
        .error .tooDeep)
    (front back : List Piece) (ht : Piece.ofChars text = front ++ back)
    (hf : ∀ piece ∈ front, ∃ depth cs,
      fillPiece properties mode (fill properties mode depth) visiting text piece = .ok cs) :
    ∃ depth, back.mapM (fillPiece properties mode (fill properties mode depth) visiting text) ≠
      .error .tooDeep := by
  induction back generalizing front with
  | nil => exact ⟨0, by simp [pure, Except.pure]⟩
  | cons piece back ih =>
    have hp : ∃ depth, fillPiece properties mode (fill properties mode depth) visiting text piece ≠
        .error .tooDeep := by
      cases piece with
      | literal cs => exact ⟨0, by simp [fillPiece]⟩
      | placeholder inner => exact h inner ⟨front, back, ht, hf⟩
    obtain ⟨m, hm⟩ := hp
    cases hr : fillPiece properties mode (fill properties mode m) visiting text piece with
    | error err =>
      refine ⟨m, ?_⟩
      rw [List.mapM_cons, hr]
      rw [hr] at hm
      simpa [bind, Except.bind] using hm
    | ok cs =>
      have hfront : ∀ q ∈ front ++ [piece], ∃ depth cs,
          fillPiece properties mode (fill properties mode depth) visiting text q = .ok cs := by
        intro q hq
        rcases List.mem_append.mp hq with hq | hq
        · exact hf q hq
        · rw [List.mem_singleton.mp hq]
          exact ⟨m, cs, hr⟩
      obtain ⟨n, hn⟩ := ih (front ++ [piece]) (by simpa using ht) hfront
      refine ⟨m + n, ?_⟩
      rw [List.mapM_cons, fillPiece_deeper n hm, hr]
      have hback : back.mapM (fillPiece properties mode (fill properties mode (m + n)) visiting
          text) = back.mapM (fillPiece properties mode (fill properties mode n) visiting text) := by
        refine mapM_agrees (fun a ha => ?_) hn
        rw [Nat.add_comm]
        exact fillPiece_deeper m ha
      rw [hback]
      cases hs : back.mapM (fillPiece properties mode (fill properties mode n) visiting text) with
      | error err =>
        rw [hs] at hn
        simpa [bind, Except.bind] using hn
      | ok parts => simp [bind, Except.bind, pure, Except.pure]

theorem descends_of_valueOf? {visiting : List (List Char)} {text inner body value : List Char}
    (hc : ComesTo properties mode visiting text inner)
    (hb : Fills properties mode visiting inner body) (hv : body ∉ visiting)
    (hl : valueOf? properties body = some value) :
    ∃ kind, Descends properties mode kind (visiting, text) (body :: visiting, value) := by
  cases hp : properties.get? (String.ofList (splitDefault body).1) with
  | some stored =>
    rw [valueOf?, hp] at hl
    obtain rfl : stored.toList = value := Option.some.inj hl
    exact ⟨.value, .value hc hb hv hp⟩
  | none =>
    rw [valueOf?, hp] at hl
    exact ⟨.fallback, .fallback hc hb hv hp hl⟩

theorem ends_of_acc {p : Pending}
    (h : Acc (fun q p => ∃ kind, Descends properties mode kind p q) p) :
    ∃ depth, fill properties mode depth p.1 p.2 ≠ .error .tooDeep := by
  induction h with
  | intro p _ ih =>
    obtain ⟨visiting, text⟩ := p
    have hpieces : ∀ inner, ComesTo properties mode visiting text inner → ∃ depth,
        fillPiece properties mode (fill properties mode depth) visiting text (.placeholder inner) ≠
          .error .tooDeep := by
      intro inner hc
      obtain ⟨m, hm⟩ := ih (visiting, inner) ⟨.body, .body hc⟩
      cases hr : fill properties mode m visiting inner with
      | error err =>
        refine ⟨m, ?_⟩
        rw [hr] at hm
        simpa [fillPiece, hr, bind, Except.bind] using hm
      | ok body =>
        by_cases hv : body ∈ visiting
        · exact ⟨m, by simp [fillPiece, hr, hv, bind, Except.bind]⟩
        · cases hl : valueOf? properties body with
          | none => exact ⟨m, by cases mode <;> simp [fillPiece, hr, hv, hl, bind, Except.bind,
              PlaceholderMode.unfilled]⟩
          | some value =>
            obtain ⟨n, hn⟩ := ih _ (descends_of_valueOf? hc ⟨m, hr⟩ hv hl)
            refine ⟨m + n, ?_⟩
            rw [← fill_deeper m hn, Nat.add_comm] at hn
            simpa [fillPiece, fill_ok n (List.Subset.refl _) hr, hv, hl, bind, Except.bind] using hn
    obtain ⟨depth, hd⟩ := mapM_ends hpieces [] _ rfl (by simp)
    refine ⟨depth + 1, ?_⟩
    rw [fill_succ]
    cases hr : (Piece.ofChars text).mapM
        (fillPiece properties mode (fill properties mode depth) visiting text) with
    | error err =>
      rw [hr] at hd
      simpa [Functor.map, Except.map] using hd
    | ok parts => simp [Functor.map, Except.map]

theorem acc_of_ends {depth : Nat} {p : Pending}
    (h : fill properties mode depth p.1 p.2 ≠ .error .tooDeep) :
    Acc (fun q p => ∃ kind, Descends properties mode kind p q) p := by
  induction depth generalizing p with
  | zero => exact absurd rfl h
  | succ depth ih =>
    exact .intro p fun q ⟨_, hq⟩ => ih fun he => h (fill_tooDeep_of_descends hq he)

theorem ComesTo.within {visiting : List (List Char)} {text inner : List Char}
    (h : ComesTo properties mode visiting text inner) :
    inner <:+: text ∧ inner.length < text.length := by
  obtain ⟨front, back, ht, -⟩ := h
  have he := Piece.flatMap_chars_ofChars text
  rw [ht, List.flatMap_append, List.flatMap_cons] at he
  constructor
  · refine ⟨front.flatMap Piece.chars ++ ['$', '{'], '}' :: back.flatMap Piece.chars, ?_⟩
    rw [← he]
    simp [Piece.chars]
  · rw [← he]
    simp only [Piece.chars, List.length_append, List.length_cons]
    omega

variable (properties mode) in
def valueBodies : Set (List Char) :=
  {body | ∃ value ∈ properties.map Prod.snd, ∃ inner, inner <:+: value.toList ∧
    ∃ visiting, Fills properties mode visiting inner body}

theorem valueBodies_finite : (valueBodies properties mode).Finite := by
  let texts := (properties.map Prod.snd).flatMap fun value => value.toList.sublists
  have hf : {inner | inner ∈ texts}.Finite := texts.finite_toSet
  refine (hf.biUnion (t := fun inner =>
    {body | ∃ visiting, Fills properties mode visiting inner body}) fun inner _ => ?_).subset ?_
  · refine Set.Subsingleton.finite ?_
    rintro b ⟨v, hb⟩ c ⟨w, hc⟩
    exact hb.unique hc
  · rintro body ⟨value, hv, inner, hi, hb⟩
    refine Set.mem_biUnion (x := inner) ?_ hb
    exact List.mem_flatMap.mpr ⟨value, hv, List.mem_sublists.mpr hi.sublist⟩

variable (properties mode) in
noncomputable def unvisited (visiting : List (List Char)) : ℕ :=
  (valueBodies properties mode \ {body | body ∈ visiting}).ncard

theorem unvisited_cons_le (body : List Char) (visiting : List (List Char)) :
    unvisited properties mode (body :: visiting) ≤ unvisited properties mode visiting := by
  refine Set.ncard_le_ncard (fun b hb => ⟨hb.1, fun hm => hb.2 ?_⟩) (valueBodies_finite.sdiff)
  exact List.mem_cons_of_mem body hm

theorem unvisited_cons_lt {body : List Char} {visiting : List (List Char)}
    (hb : body ∈ valueBodies properties mode) (hv : body ∉ visiting) :
    unvisited properties mode (body :: visiting) < unvisited properties mode visiting := by
  refine Set.ncard_lt_ncard ⟨fun b hm => ⟨hm.1, fun h => hm.2 ?_⟩, fun h => ?_⟩
    (valueBodies_finite.sdiff)
  · exact List.mem_cons_of_mem body h
  · exact (h ⟨hb, hv⟩).2 List.mem_cons_self

theorem unvisited_descends {kind : Descent} {p q : Pending}
    (h : Descends properties mode kind p q) :
    unvisited properties mode q.1 ≤ unvisited properties mode p.1 := by
  cases h with
  | body => exact le_refl _
  | value => exact unvisited_cons_le _ _
  | fallback => exact unvisited_cons_le _ _

theorem descends_within_value {kind : Descent} {p q : Pending} {value : String}
    (hm : value ∈ properties.map Prod.snd) (hp : p.2 <:+: value.toList)
    (h : Descends properties mode kind p q) :
    (q.2 <:+: value.toList ∧ q.2.length < p.2.length) ∨
      unvisited properties mode q.1 < unvisited properties mode p.1 := by
  cases h with
  | body hc => exact .inl ⟨hc.within.1.trans hp, hc.within.2⟩
  | value hc hb hv => exact .inr (unvisited_cons_lt ⟨value, hm, _, hc.within.1.trans hp, _, hb⟩ hv)
  | fallback hc hb hv => exact .inr (unvisited_cons_lt ⟨value, hm, _, hc.within.1.trans hp, _, hb⟩ hv)

theorem not_within_value {chain : ℕ → Pending} {kind : ℕ → Descent} (start : ℕ)
    (hc : ∀ n, Descends properties mode (kind n) (chain n) (chain (n + 1)))
    (hs : ∀ n, start ≤ n →
      unvisited properties mode (chain n).1 ≤ unvisited properties mode (chain (n + 1)).1)
    {value : String} (hm : value ∈ properties.map Prod.snd) (length n : ℕ) (hn : start ≤ n)
    (hw : (chain n).2 <:+: value.toList) : (chain n).2.length ≠ length := by
  induction length using Nat.strong_induction_on generalizing n with
  | _ length ih =>
    intro hl
    rcases descends_within_value hm hw (hc n) with ⟨hw', hlt⟩ | hlt
    · exact ih _ (hl ▸ hlt) (n + 1) (by omega) hw' rfl
    · exact absurd (hs n hn) (by omega)

theorem value_of_descends {p q : Pending} (h : Descends properties mode .value p q) :
    ∃ value ∈ properties.map Prod.snd, q.2 = value.toList := by
  cases h with
  | @value _ _ _ body value _ _ _ hp =>
    obtain ⟨front, back, rfl, -⟩ := List.lookup_eq_some_iff.mp hp
    exact ⟨value, by simp, rfl⟩

theorem exists_last_value {chain : ℕ → Pending} {kind : ℕ → Descent}
    (hc : ∀ n, Descends properties mode (kind n) (chain n) (chain (n + 1))) :
    ∃ start, ∀ n, start ≤ n → kind n ≠ .value := by
  let count n := unvisited properties mode (chain n).1
  have hanti : Antitone count := antitone_nat_of_succ_le fun n => unvisited_descends (hc n)
  let start := Function.argmin count
  have hmin : ∀ n, count start ≤ count n := fun n => Function.argmin_le count n
  refine ⟨start, fun n hn hk => ?_⟩
  obtain ⟨value, hm, hq⟩ := value_of_descends (hk ▸ hc n)
  refine not_within_value start hc (fun m hm => ?_) hm _ (n + 1) (by omega) ?_ rfl
  · exact (hanti hm).trans (hmin (m + 1))
  · rw [hq]

theorem resolvePlaceholders_tooDeep_iff {text : String} {depth : Nat} :
    (resolvePlaceholders properties mode text depth).1 = .error .tooDeep ↔
      fill properties mode depth [] text.toList = .error .tooDeep := by
  rw [resolvePlaceholders_fst]
  cases fill properties mode depth [] text.toList with
  | error err => simp [Except.map]
  | ok cs => simp [Except.map]

theorem resolvePlaceholders_congr {text : String} {m n : Nat}
    (h : resolveChars properties mode m [] text.toList [] =
      resolveChars properties mode n [] text.toList []) :
    resolvePlaceholders properties mode text m = resolvePlaceholders properties mode text n := by
  change (Except.map _ (resolveChars properties mode m [] text.toList []).1, _) =
    (Except.map _ (resolveChars properties mode n [] text.toList []).1, _)
  rw [h]

/-- A resolution ends, in a text or in a placeholder that is circular or unresolved, unless it
descends for ever and comes to fall back on defaults only. -/
theorem resolution_ends_iff (text : String) :
    (∃ depth, (resolvePlaceholders properties mode text depth).1 ≠ .error .tooDeep ∧
      ∀ more, resolvePlaceholders properties mode text (depth + more) =
        resolvePlaceholders properties mode text depth) ↔
      ¬ FallsForever properties mode ([], text.toList) := by
  constructor
  · rintro ⟨depth, hd, -⟩ ⟨chain, kind, h0, hc, -⟩
    rw [ne_eq, resolvePlaceholders_tooDeep_iff] at hd
    have hacc := acc_of_ends (p := ([], text.toList)) hd
    exact not_acc_iff_exists_descending_chain.mpr ⟨chain, h0, fun n => ⟨kind n, hc n⟩⟩ hacc
  · intro h
    have hacc : Acc (fun q p => ∃ kind, Descends properties mode kind p q) ([], text.toList) := by
      by_contra hacc
      obtain ⟨chain, h0, hc⟩ := not_acc_iff_exists_descending_chain.mp hacc
      choose kind hk using hc
      exact h ⟨chain, kind, h0, hk, exists_last_value hk⟩
    obtain ⟨depth, hd⟩ := ends_of_acc hacc
    refine ⟨depth, fun he => hd (resolvePlaceholders_tooDeep_iff.mp he), fun more => ?_⟩
    rw [← resolveChars_comesOut properties mode depth _ _ []] at hd
    exact resolvePlaceholders_congr (resolveChars_deeper properties mode more hd)

end

def openAgain : List Char :=
  ['$', '{', 'd', '}', '{', 'k', ':', '$', '{', 'd', '}', '{', 'p', '}', 'x']

def closeAgain : List Char := ['$', '{', 'd', '}', '{', 'r', '}', '}']

def spiral : Table String :=
  [("d", "$"), ("p", String.ofList openAgain), ("r", String.ofList closeAgain)]

def spiralBody (n : Nat) : List Char :=
  'k' :: ':' :: '$' :: '{' :: 'p' :: '}' :: (List.replicate n 'x' ++ ['$', '{', 'r', '}'])

theorem placeholderBody?_spiralBody (n : Nat) :
    placeholderBody? 0 (spiralBody n ++ ['}']) = some (spiralBody n, []) := by
  simp [spiralBody, placeholderBody?, placeholderBody?_replicate]

section

variable {mode : PlaceholderMode} {visiting : List (List Char)}

theorem fillPiece_key {properties : Table String} {key out : List Char} {depth : Nat}
    (text value : List Char) (hi : Piece.ofChars key = [.literal key]) (hk : key ∉ visiting)
    (hl : valueOf? properties key = some value)
    (hf : fill properties mode (depth + 1) (key :: visiting) value = .ok out) :
    fillPiece properties mode (fill properties mode (depth + 1)) visiting text (.placeholder key) =
      .ok out := by
  simp [fillPiece, fill_literal hi, hk, hl, hf, bind, Except.bind]

theorem fillPiece_dollar (text : List Char) (depth : Nat) (hd : ['d'] ∉ visiting) :
    fillPiece spiral mode (fill spiral mode (depth + 1)) visiting text (.placeholder ['d']) =
      .ok ['$'] := by
  apply fillPiece_key text ['$'] (by decide +kernel) hd (by decide +kernel)
  exact fill_literal (by decide +kernel) depth _

theorem fillPiece_open (text : List Char) (depth : Nat) (hd : ['d'] ∉ visiting)
    (hp : ['p'] ∉ visiting) :
    fillPiece spiral mode (fill spiral mode (depth + 2)) visiting text (.placeholder ['p']) =
      .ok ['$', '{', 'k', ':', '$', '{', 'p', '}', 'x'] := by
  have hv : Piece.ofChars openAgain = [.placeholder ['d'], .literal ['{', 'k', ':'],
      .placeholder ['d'], .literal ['{', 'p', '}', 'x']] := by decide +kernel
  have hd' : ['d'] ∉ ['p'] :: visiting := by simp [hd]
  apply fillPiece_key text openAgain (by decide +kernel) hp (by decide +kernel)
  rw [fill_succ, hv]
  simp only [List.mapM_cons, fillPiece_dollar _ depth hd', fillPiece_literal]
  rfl

theorem fillPiece_close (text : List Char) (depth : Nat) (hd : ['d'] ∉ visiting)
    (hr : ['r'] ∉ visiting) :
    fillPiece spiral mode (fill spiral mode (depth + 2)) visiting text (.placeholder ['r']) =
      .ok ['$', '{', 'r', '}', '}'] := by
  have hv : Piece.ofChars closeAgain = [.placeholder ['d'], .literal ['{', 'r', '}', '}']] := by
    decide +kernel
  have hd' : ['d'] ∉ ['r'] :: visiting := by simp [hd]
  apply fillPiece_key text closeAgain (by decide +kernel) hr (by decide +kernel)
  rw [fill_succ, hv]
  simp only [List.mapM_cons, fillPiece_dollar _ depth hd', fillPiece_literal]
  rfl

variable (mode) in
theorem mapM_fillPiece_run (text : List Char) (hd : ['d'] ∉ visiting) (hr : ['r'] ∉ visiting)
    (n : Nat) :
    List.flatten <$> (Piece.ofChars (List.replicate n 'x' ++ ['$', '{', 'r', '}'])).mapM
        (fillPiece spiral mode (fill spiral mode 2) visiting text) =
      .ok (List.replicate n 'x' ++ ['$', '{', 'r', '}', '}']) := by
  induction n with
  | zero =>
    have ho : Piece.ofChars ['$', '{', 'r', '}'] = [.placeholder ['r']] := by decide +kernel
    rw [List.replicate_zero, List.nil_append, ho]
    simp only [List.mapM_cons, fillPiece_close _ 0 hd hr]
    rfl
  | succ n ih =>
    rw [List.replicate_succ, List.cons_append, Piece.ofChars_cons (by decide),
      mapM_fillPiece_glue, ih]
    rfl

variable (mode) in
theorem fill_spiralBody (hd : ['d'] ∉ visiting) (hp : ['p'] ∉ visiting) (hr : ['r'] ∉ visiting)
    (n : Nat) :
    fill spiral mode 3 visiting (spiralBody n) =
      .ok ('k' :: ':' :: '$' :: '{' :: (spiralBody (n + 1) ++ ['}'])) := by
  have ho : Piece.ofChars (spiralBody n) = Piece.glue 'k' (Piece.glue ':'
      (.placeholder ['p'] :: Piece.ofChars (List.replicate n 'x' ++ ['$', '{', 'r', '}']))) := by
    rw [spiralBody, Piece.ofChars_cons (by decide), Piece.ofChars_cons (by decide)]
    rw [Piece.ofChars_placeholder (show placeholderBody? 0 _ = some (['p'], _) from rfl)]
  rw [fill_succ, ho, mapM_fillPiece_glue, mapM_fillPiece_glue, List.mapM_cons,
    fillPiece_open _ 0 hd hp]
  have hrun := mapM_fillPiece_run mode (spiralBody n) hd hr n
  cases hm : (Piece.ofChars (List.replicate n 'x' ++ ['$', '{', 'r', '}'])).mapM
      (fillPiece spiral mode (fill spiral mode 2) visiting (spiralBody n)) with
  | error err =>
    rw [hm] at hrun
    cases hrun
  | ok parts =>
    rw [hm] at hrun
    have hparts : parts.flatten = _ := Except.ok.inj hrun
    change Except.ok _ = Except.ok _
    rw [List.flatten_cons, hparts]
    simp [spiralBody, List.replicate_succ]

theorem fill_spiral (depth n : Nat) (hv : ∀ body ∈ visiting, ∃ m, m < n ∧
      body = 'k' :: ':' :: '$' :: '{' :: (spiralBody (m + 1) ++ ['}'])) :
    fill spiral mode depth visiting ('$' :: '{' :: (spiralBody n ++ ['}'])) = .error .tooDeep := by
  induction depth generalizing n visiting with
  | zero => rfl
  | succ depth ih =>
    have hkey : ∀ key : List Char, key.length = 1 → key ∉ visiting := by
      intro key hk hm
      obtain ⟨m, -, rfl⟩ := hv key hm
      simp at hk
    have hc : ComesTo spiral mode visiting ('$' :: '{' :: (spiralBody n ++ ['}']))
        (spiralBody n) := by
      refine ⟨[], [], ?_, by simp⟩
      rw [Piece.ofChars_placeholder (placeholderBody?_spiralBody n)]
      simp [Piece.ofChars]
    have hb := fill_spiralBody mode (hkey _ rfl) (hkey _ rfl) (hkey _ rfl) n
    refine fill_tooDeep_of_descends (.fallback hc ⟨3, hb⟩ ?_ rfl rfl) (ih (n + 1) ?_)
    · intro hm
      obtain ⟨m, hlt, he⟩ := hv _ hm
      have hl := congrArg List.length he
      simp [spiralBody] at hl
      omega
    · intro body hm
      rcases List.mem_cons.mp hm with rfl | hm
      · exact ⟨n, by omega, rfl⟩
      · obtain ⟨m, hlt, he⟩ := hv body hm
        exact ⟨m, by omega, he⟩

end

theorem spiral_never_ends : ¬ ∃ depth,
    (resolvePlaceholders spiral .required "$\x7bk:$\x7bp\x7d$\x7br\x7d\x7d" depth).1 ≠
      .error .tooDeep := by
  rintro ⟨depth, hends⟩
  apply hends
  rw [resolvePlaceholders_tooDeep_iff]
  exact fill_spiral depth 0 (by simp)

end BeanCatalog
