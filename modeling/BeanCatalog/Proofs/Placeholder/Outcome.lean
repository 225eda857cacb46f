import BeanCatalog.Proofs.Placeholder.Relations
import Mathlib.Data.List.Infix

namespace BeanCatalog

def Deepens {α : Type} (act deeper : Resolution α) : Prop :=
  ∀ noted, (act noted).1 ≠ .error .tooDeep → deeper noted = act noted

namespace Deepens

variable {α β : Type}

theorem refl (act : Resolution α) : Deepens act act := fun _ _ => rfl

theorem throw_tooDeep (deeper : Resolution α) : Deepens (throw .tooDeep) deeper :=
  fun _ h => absurd rfl h

theorem bind {act deeper : Resolution α} {next nextDeeper : α → Resolution β}
    (ha : Deepens act deeper) (hn : ∀ a, Deepens (next a) (nextDeeper a)) :
    Deepens (act >>= next) (deeper >>= nextDeeper) := by
  intro noted h
  rcases hact : act noted with ⟨err | a, later⟩
  · rw [Resolution.bind_error next hact] at h
    have hne : (act noted).1 ≠ .error .tooDeep := by
      rw [hact]
      exact fun he => h (congrArg Except.error (Except.error.inj he))
    have hsame : deeper noted = (.error err, later) := (ha noted hne).trans hact
    rw [Resolution.bind_error next hact, Resolution.bind_error nextDeeper hsame]
  · rw [Resolution.bind_ok next hact] at h
    have hsame : deeper noted = (.ok a, later) := (ha noted (by rw [hact]; nofun)).trans hact
    rw [Resolution.bind_ok next hact, Resolution.bind_ok nextDeeper hsame]
    exact hn a later h

theorem relation (mode : PlaceholderMode) :
    ResolutionRelation mode mode fun _ act deeper => Deepens act deeper where
  done a := refl (pure a)
  bind := bind
  circular body text := refl (throw (.circular body text))
  missing key text piece := refl (mode.missing key text piece)

end Deepens

section

variable (properties : Table String) (mode : PlaceholderMode)

theorem resolveChars_deeper {depth : Nat} {visiting : List (List Char)} {text : List Char}
    {noted : List String} (more : Nat)
    (h : (resolveChars properties mode depth visiting text noted).1 ≠ .error .tooDeep) :
    resolveChars properties mode (depth + more) visiting text noted =
      resolveChars properties mode depth visiting text noted := by
  have hdeepens := (Deepens.relation mode).resolveChars properties more
    (fun visiting text => .throw_tooDeep _) depth visiting text
  exact hdeepens noted h

def valueOf? (body : List Char) : Option (List Char) :=
  (properties.get? (String.ofList (splitDefault body).1)).map String.toList <|> (splitDefault body).2

def PlaceholderMode.unfilled (mode : PlaceholderMode) (key text piece : List Char) :
    Except PlaceholderError (List Char) :=
  match mode with
  | .required => .error (.unresolved (String.ofList key) (String.ofList text))
  | .lenient => .ok piece

def fillPiece (fillText : List (List Char) → List Char → Except PlaceholderError (List Char))
    (visiting : List (List Char)) (text : List Char) : Piece → Except PlaceholderError (List Char)
  | .literal cs => .ok cs
  | .placeholder inner => do
    let body ← fillText visiting inner
    if visiting.contains body then .error (.circular (String.ofList body) (String.ofList text))
    else
      match valueOf? properties body with
      | none => mode.unfilled (splitDefault body).1 text (Piece.placeholder inner).chars
      | some value => fillText (body :: visiting) value

def fill : (depth : Nat) → (visiting : List (List Char)) → List Char →
    Except PlaceholderError (List Char)
  | 0, _, _ => .error .tooDeep
  | depth + 1, visiting, text => do
    let parts ← (Piece.ofChars text).mapM (fillPiece properties mode (fill depth) visiting text)
    pure parts.flatten

end

def ComesOut {α : Type} (act : Resolution α) (outcome : Except PlaceholderError α) : Prop :=
  ∀ noted, (act noted).1 = outcome

namespace ComesOut

variable {α β : Type}

theorem bind {act : Resolution α} {next : α → Resolution β} {outcome : Except PlaceholderError α}
    {nextOutcome : α → Except PlaceholderError β} (ha : ComesOut act outcome)
    (hn : ∀ a, ComesOut (next a) (nextOutcome a)) :
    ComesOut (act >>= next) (outcome >>= nextOutcome) := by
  intro noted
  rcases hact : act noted with ⟨err | a, later⟩
  · obtain rfl : .error err = outcome := (congrArg Prod.fst hact).symm.trans (ha noted)
    rw [Resolution.bind_error next hact]
    rfl
  · obtain rfl : .ok a = outcome := (congrArg Prod.fst hact).symm.trans (ha noted)
    rw [Resolution.bind_ok next hact]
    exact hn a later

theorem mapM {f : α → Resolution β} {g : α → Except PlaceholderError β}
    (h : ∀ a, ComesOut (f a) (g a)) (l : List α) : ComesOut (l.mapM f) (l.mapM g) := by
  induction l with
  | nil => exact fun _ => rfl
  | cons a l ih =>
    simp only [List.mapM_cons]
    exact bind (h a) fun b => bind ih fun bs _ => rfl

end ComesOut

section

variable (properties : Table String) (mode : PlaceholderMode)

theorem missing_comesOut (key text piece : List Char) :
    ComesOut (mode.missing key text piece) (mode.unfilled key text piece) := by
  cases mode with
  | required => exact fun _ => rfl
  | lenient => exact fun _ => rfl

theorem resolveChars_comesOut (depth : Nat) (visiting : List (List Char)) (text : List Char) :
    ComesOut (resolveChars properties mode depth visiting text)
      (fill properties mode depth visiting text) := by
  induction depth generalizing visiting text with
  | zero => exact fun _ => rfl
  | succ depth ih =>
    unfold resolveChars fill
    refine .bind (.mapM (fun piece => ?_) _) fun _ _ => rfl
    cases piece with
    | literal cs => exact fun _ => rfl
    | placeholder inner =>
      refine .bind (ih visiting inner) fun body => ?_
      by_cases hv : body ∈ visiting
      · simp only [List.contains_iff_mem, hv, if_true]
        exact fun _ => rfl
      · simp only [List.contains_iff_mem, hv, if_false]
        change ComesOut _ (match valueOf? properties body with | none => _ | some value => _)
        unfold valueOf?
        cases (properties.get? (String.ofList (splitDefault body).1)).map String.toList <|>
            (splitDefault body).2 with
        | none => exact missing_comesOut _ _ _ _
        | some value => exact ih (body :: visiting) value

end

section

variable {properties : Table String} {mode : PlaceholderMode}

theorem fill_deeper {depth : Nat} {visiting : List (List Char)} {text : List Char} (more : Nat)
    (h : fill properties mode depth visiting text ≠ .error .tooDeep) :
    fill properties mode (depth + more) visiting text = fill properties mode depth visiting text := by
  have hd := resolveChars_comesOut properties mode depth visiting text []
  have hm := resolveChars_comesOut properties mode (depth + more) visiting text []
  rw [← hd] at h
  rw [← hm, ← hd, resolveChars_deeper properties mode more h]

theorem fill_succ (depth : Nat) (visiting : List (List Char)) (text : List Char) :
    fill properties mode (depth + 1) visiting text = List.flatten <$>
      (Piece.ofChars text).mapM
        (fillPiece properties mode (fill properties mode depth) visiting text) := by
  unfold fill
  cases (Piece.ofChars text).mapM
    (fillPiece properties mode (fill properties mode depth) visiting text) <;> rfl

theorem fillPiece_literal
    (fillText : List (List Char) → List Char → Except PlaceholderError (List Char))
    (visiting : List (List Char)) (text cs : List Char) :
    fillPiece properties mode fillText visiting text (.literal cs) = .ok cs := rfl

theorem mapM_fillPiece_glue
    (fillText : List (List Char) → List Char → Except PlaceholderError (List Char))
    (visiting : List (List Char)) (text : List Char) (c : Char) (ps : List Piece) :
    List.flatten <$> (Piece.glue c ps).mapM (fillPiece properties mode fillText visiting text) =
      (c :: ·) <$> List.flatten <$>
        ps.mapM (fillPiece properties mode fillText visiting text) := by
  unfold Piece.glue
  split
  · simp only [List.mapM_cons, fillPiece_literal]
    cases List.mapM (fillPiece properties mode fillText visiting text) _ <;> rfl
  · simp only [List.mapM_cons, fillPiece_literal]
    cases List.mapM (fillPiece properties mode fillText visiting text) ps <;> rfl

theorem fill_literal {text : List Char} (ht : Piece.ofChars text = [.literal text]) (depth : Nat)
    (visiting : List (List Char)) : fill properties mode (depth + 1) visiting text = .ok text := by
  rw [fill_succ, ht, List.mapM_cons]
  exact congrArg Except.ok (List.append_nil text)

theorem fillPiece_placeholder_ok
    {fillText : List (List Char) → List Char → Except PlaceholderError (List Char)}
    {visiting : List (List Char)} {text inner cs : List Char} :
    fillPiece properties mode fillText visiting text (.placeholder inner) = .ok cs ↔
      ∃ body, fillText visiting inner = .ok body ∧ body ∉ visiting ∧
        (∀ value, valueOf? properties body = some value →
          fillText (body :: visiting) value = .ok cs) ∧
        (valueOf? properties body = none →
          mode.unfilled (splitDefault body).1 text (Piece.placeholder inner).chars = .ok cs) := by
  cases hb : fillText visiting inner with
  | error err => simp [fillPiece, hb, bind, Except.bind]
  | ok body =>
    by_cases hv : body ∈ visiting
    · simp [fillPiece, hb, hv, bind, Except.bind]
    · cases hl : valueOf? properties body <;> simp [fillPiece, hb, hv, hl, bind, Except.bind]

theorem fillPiece_ok {f g : List (List Char) → List Char → Except PlaceholderError (List Char)}
    {visiting fewer : List (List Char)} {text cs : List Char} {piece : Piece} (hs : fewer ⊆ visiting)
    (h : ∀ v w t cs, w ⊆ v → f v t = .ok cs → g w t = .ok cs)
    (hf : fillPiece properties mode f visiting text piece = .ok cs) :
    fillPiece properties mode g fewer text piece = .ok cs := by
  cases piece with
  | literal ds => exact hf
  | placeholder inner =>
    obtain ⟨body, hb, hv, hvalue, hnone⟩ := fillPiece_placeholder_ok.mp hf
    have hw : body ∉ fewer := fun hm => hv (hs hm)
    have hvalue' : ∀ value, valueOf? properties body = some value → g (body :: fewer) value = .ok cs :=
      fun value hl => h _ _ _ _ (List.cons_subset_cons body hs) (hvalue value hl)
    exact fillPiece_placeholder_ok.mpr ⟨body, h _ _ _ _ hs hb, hw, hvalue', hnone⟩

theorem mapM_ok {α β : Type} {f g : α → Except PlaceholderError β} {l : List α} {bs : List β}
    (h : ∀ a b, f a = .ok b → g a = .ok b) (hf : l.mapM f = .ok bs) : l.mapM g = .ok bs := by
  induction l generalizing bs with
  | nil => exact hf
  | cons a l ih =>
    simp only [List.mapM_cons, bind, Except.bind] at hf ⊢
    cases ha : f a with
    | error err => simp [ha] at hf
    | ok b =>
      cases hl : l.mapM f with
      | error err => simp [ha, hl] at hf
      | ok cs =>
        rw [h a b ha, ih hl]
        simpa only [ha, hl] using hf

theorem fill_ok {depth : Nat} {visiting fewer : List (List Char)} {text cs : List Char} (more : Nat)
    (hs : fewer ⊆ visiting) (hf : fill properties mode depth visiting text = .ok cs) :
    fill properties mode (depth + more) fewer text = .ok cs := by
  induction depth generalizing visiting fewer text cs with
  | zero => cases hf
  | succ depth ih =>
    rw [Nat.add_right_comm]
    unfold fill at hf ⊢
    cases hp : (Piece.ofChars text).mapM
        (fillPiece properties mode (fill properties mode depth) visiting text) with
    | error err => simp [hp, bind, Except.bind] at hf
    | ok parts =>
      have hg : (Piece.ofChars text).mapM (fillPiece properties mode
          (fill properties mode (depth + more)) fewer text) = .ok parts :=
        mapM_ok (fun _ _ h => fillPiece_ok hs (fun _ _ _ _ hw hi => ih hw hi) h) hp
      rw [hg]
      rwa [hp] at hf

variable (properties mode) in
def Fills (visiting : List (List Char)) (text cs : List Char) : Prop :=
  ∃ depth, fill properties mode depth visiting text = .ok cs

theorem Fills.unique {v w : List (List Char)} {text cs ds : List Char}
    (hc : Fills properties mode v text cs) (hd : Fills properties mode w text ds) : cs = ds := by
  obtain ⟨m, hm⟩ := hc
  obtain ⟨n, hn⟩ := hd
  have hm' := fill_ok n (List.nil_subset v) hm
  have hn' := fill_ok m (List.nil_subset w) hn
  rw [Nat.add_comm, hm'] at hn'
  exact Except.ok.inj hn'

theorem fill_eq_ok {depth : Nat} {visiting : List (List Char)} {text cs : List Char}
    (hc : Fills properties mode visiting text cs)
    (h : fill properties mode depth visiting text ≠ .error .tooDeep) :
    fill properties mode depth visiting text = .ok cs := by
  obtain ⟨n, hn⟩ := hc
  have hm := fill_ok depth (List.Subset.refl visiting) hn
  rwa [Nat.add_comm, fill_deeper n h] at hm

theorem fillPiece_deeper {depth : Nat} {visiting : List (List Char)} {text : List Char}
    {piece : Piece} (more : Nat)
    (h : fillPiece properties mode (fill properties mode depth) visiting text piece ≠
      .error .tooDeep) :
    fillPiece properties mode (fill properties mode (depth + more)) visiting text piece =
      fillPiece properties mode (fill properties mode depth) visiting text piece := by
  cases piece with
  | literal cs => rfl
  | placeholder inner =>
    simp only [fillPiece] at h ⊢
    have hi : fill properties mode depth visiting inner ≠ .error .tooDeep := by
      intro he
      simp [he, bind, Except.bind] at h
    rw [fill_deeper more hi]
    cases hb : fill properties mode depth visiting inner with
    | error err => rfl
    | ok body =>
      simp only [hb, bind, Except.bind] at h ⊢
      by_cases hv : body ∈ visiting
      · simp only [List.contains_iff_mem, hv, if_true]
      · simp only [List.contains_iff_mem, hv, if_false] at h ⊢
        cases hl : valueOf? properties body with
        | none => rfl
        | some value =>
          simp only [hl] at h ⊢
          exact fill_deeper more h

theorem mapM_agrees {α β : Type} {f g : α → Except PlaceholderError β} {l : List α}
    (h : ∀ a, f a ≠ .error .tooDeep → g a = f a) (hl : l.mapM f ≠ .error .tooDeep) :
    l.mapM g = l.mapM f := by
  induction l with
  | nil => rfl
  | cons a l ih =>
    simp only [List.mapM_cons] at hl ⊢
    have ha : f a ≠ .error .tooDeep := by
      intro he
      simp [he, bind, Except.bind] at hl
    rw [h a ha]
    cases hb : f a with
    | error err => rfl
    | ok b =>
      have ht : l.mapM f ≠ .error .tooDeep := by
        intro he
        simp [hb, he, bind, Except.bind] at hl
      rw [ih ht]

theorem mapM_tooDeep {α β : Type} {f : α → Except PlaceholderError β} {front back : List α} {a : α}
    (hf : ∀ b ∈ front, f b = .error .tooDeep ∨ ∃ c, f b = .ok c) (ha : f a = .error .tooDeep) :
    (front ++ a :: back).mapM f = .error .tooDeep := by
  induction front with
  | nil => simp [ha, bind, Except.bind]
  | cons b front ih =>
    rw [List.cons_append, List.mapM_cons]
    obtain hb | ⟨c, hb⟩ := hf b List.mem_cons_self
    · rw [hb]
      rfl
    · rw [hb, ih fun d hd => hf d (List.mem_cons_of_mem b hd)]
      rfl

end

section

variable {properties : Table String} {mode : PlaceholderMode} {text : String}

theorem resolvePlaceholders_fst (depth : Nat) :
    (resolvePlaceholders properties mode text depth).1 =
      (fill properties mode depth [] text.toList).map String.ofList := by
  rw [← resolveChars_comesOut properties mode depth [] text.toList []]
  rfl

/-- A text without placeholders. A dollar sign and a brace that nothing closes are no placeholder. -/
def PlaceholderFree (text : String) : Prop :=
  ∀ body, .placeholder body ∉ Piece.ofChars text.toList

theorem placeholderFree_of_noDollar {text : String} (h : '$' ∉ text.toList) : PlaceholderFree text := by
  intro body
  generalize text.toList = cs at h
  induction cs with
  | nil =>
    rw [Piece.ofChars]
    exact List.not_mem_nil
  | cons c cs ih =>
    rw [List.mem_cons, not_or] at h
    have hcs := ih h.2
    rw [Piece.ofChars_cons (Ne.symm h.1)]
    unfold Piece.glue
    split
    next ps he =>
      rw [he] at hcs
      simpa using hcs
    next => simpa using hcs

theorem ofChars_of_free {cs : List Char} (h : ∀ body, .placeholder body ∉ Piece.ofChars cs) :
    Piece.ofChars cs = [] ∧ cs = [] ∨ Piece.ofChars cs = [.literal cs] := by
  fun_induction Piece.ofChars cs with
  | case1 => exact .inl ⟨rfl, rfl⟩
  | case2 cs body rest hb _ ih => exact absurd List.mem_cons_self (h body)
  | case3 cs _ => exact .inr rfl
  | case4 c cs _ ih =>
    have hcs : ∀ body, .placeholder body ∉ Piece.ofChars cs := by
      intro body hm
      apply h body
      unfold Piece.glue
      split
      · next ps he =>
        rw [he] at hm
        simpa using hm
      · exact List.mem_cons_of_mem _ hm
    right
    rcases ih hcs with ⟨he, rfl⟩ | he
    · rw [he]
      rfl
    · rw [he]
      rfl

theorem resolvePlaceholders_free (h : PlaceholderFree text) (depth : Nat) :
    (resolvePlaceholders properties mode text (depth + 1)).1 = .ok text := by
  have hf : fill properties mode (depth + 1) [] text.toList = .ok text.toList := by
    rcases ofChars_of_free h with ⟨ho, he⟩ | ho
    · rw [fill_succ, ho, he]
      rfl
    · exact fill_literal ho depth []
  rw [resolvePlaceholders_fst, hf, Except.map, String.ofList_toList]

end

end BeanCatalog
