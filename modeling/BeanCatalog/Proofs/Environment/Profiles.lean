import BeanCatalog.Proofs.Reading.Parts
import BeanCatalog.Proofs.Text.Tokens
import Mathlib.Data.List.Basic

namespace BeanCatalog

/-- A profile name that means nothing: blank, or blank behind the exclamation mark. -/
def BlankProfile (p : String) : Prop :=
  Text.allBlank p = true ∨ ∃ q, p = "!" ++ q ∧ Text.allBlank q = true

namespace Environment

variable (env : Environment)

def IsOn (p : String) : Prop := if env.active = [] then p ∈ env.defaults else p ∈ env.active

inductive Admits : String → Prop
  | plain {p : String} (hp : ∀ q, p ≠ "!" ++ q) (h : env.IsOn p) : Admits p
  | negated {q : String} (h : ¬ env.IsOn q) : Admits ("!" ++ q)

/-- What a list of names comes to by a rule that does not ask for their order. -/
structure Ruled (l : List String) : Prop where
  error_iff : (∃ err, env.accepts l = .error err) ↔ ∃ p ∈ l, BlankProfile p
  accepted_iff : (∀ p ∈ l, ¬ BlankProfile p) → (env.accepts l = .ok true ↔ ∃ p ∈ l, env.Admits p)

variable {env} {p q : String} {l rest : List String}

theorem isActive_iff : env.isActive p = true ↔ env.IsOn p := by
  unfold isActive IsOn
  cases env.active <;> simp

theorem toList_negated : ("!" ++ q).toList = '!' :: q.toList := by simp

theorem allBlank_negated : Text.allBlank ("!" ++ q) = false := by
  rw [Text.allBlank, toList_negated]
  rfl

theorem accepts_negated :
    env.accepts (("!" ++ q) :: rest) =
      if Text.allBlank q then .error .blank
      else if env.isActive q then env.accepts rest else .ok true := by
  rw [accepts, allBlank_negated, toList_negated]
  simp only [Bool.false_eq_true, if_false, String.ofList_toList]

theorem accepts_plain (hp : ∀ q, p ≠ "!" ++ q) :
    env.accepts (p :: rest) =
      if Text.allBlank p then .error .blank
      else if env.isActive p then .ok true else env.accepts rest := by
  have hnot : ∀ cs, p.toList ≠ '!' :: cs := by
    intro cs h
    refine hp (String.ofList cs) (String.toList_inj.mp ?_)
    rw [h, toList_negated, String.toList_ofList]
  rw [accepts]
  split
  · rfl
  · split
    · next cs h => exact absurd h (hnot cs)
    · rfl

theorem accepts_blank (h : BlankProfile p) : env.accepts (p :: rest) = .error .blank := by
  rcases h with hp | ⟨q, rfl, hq⟩
  · have hplain : ∀ q, p ≠ "!" ++ q := by
      rintro q rfl
      rw [allBlank_negated] at hp
      cases hp
    rw [accepts_plain hplain, if_pos hp]
  · rw [accepts_negated, if_pos hq]

theorem accepts_admitted (hb : ¬ BlankProfile p) (h : env.Admits p) :
    env.accepts (p :: rest) = .ok true := by
  cases h with
  | plain hp h => rw [accepts_plain hp, if_neg fun hp => hb (.inl hp), if_pos (isActive_iff.mpr h)]
  | negated h =>
    rw [accepts_negated, if_neg fun hq => hb (.inr ⟨_, rfl, hq⟩), if_neg fun ha => h (isActive_iff.mp ha)]

theorem accepts_passed (hb : ¬ BlankProfile p) (h : ¬ env.Admits p) :
    env.accepts (p :: rest) = env.accepts rest := by
  by_cases hn : ∃ q, p = "!" ++ q
  · obtain ⟨q, rfl⟩ := hn
    have hq : env.IsOn q := Classical.not_not.mp fun hq => h (.negated hq)
    rw [accepts_negated, if_neg fun hq => hb (.inr ⟨_, rfl, hq⟩), if_pos (isActive_iff.mpr hq)]
  · have hplain : ∀ q, p ≠ "!" ++ q := fun q hq => hn ⟨q, hq⟩
    rw [accepts_plain hplain, if_neg fun hp => hb (.inl hp),
      if_neg fun ha => h (.plain hplain (isActive_iff.mp ha))]

theorem accepts_behind (front rest : List String)
    (h : ∀ p ∈ front, ¬ BlankProfile p ∧ ¬ env.Admits p) :
    env.accepts (front ++ rest) = env.accepts rest := by
  induction front with
  | nil => rfl
  | cons p front ih =>
    rw [List.forall_mem_cons] at h
    rw [List.cons_append, accepts_passed h.1.1 h.1.2, ih h.2]

theorem exists_first {P : String → Prop} (h : ∃ p ∈ l, P p) :
    ∃ front p back, l = front ++ p :: back ∧ P p ∧ ∀ q ∈ front, ¬ P q := by
  classical
  cases hf : l.find? (fun p => decide (P p)) with
  | none =>
    obtain ⟨p, hm, hp⟩ := h
    exact absurd (decide_eq_true hp) (List.find?_eq_none.mp hf p hm)
  | some p =>
    obtain ⟨hp, front, back, rfl, hfront⟩ := List.find?_eq_some_iff_append.mp hf
    exact ⟨front, p, back, rfl, of_decide_eq_true hp, fun q hq => by simpa using hfront q hq⟩

theorem accepts_of_admitted (hb : ∀ p ∈ l, ¬ BlankProfile p) (h : ∃ p ∈ l, env.Admits p) :
    env.accepts (l ++ rest) = .ok true := by
  obtain ⟨front, p, back, rfl, hp, hfront⟩ := exists_first h
  rw [List.append_assoc, accepts_behind front _ fun q hq => ⟨hb q (by simp [hq]), hfront q hq⟩]
  exact accepts_admitted (hb p (by simp)) hp

theorem accepts_of_none (hb : ∀ p ∈ l, ¬ BlankProfile p) (h : ¬ ∃ p ∈ l, env.Admits p) :
    env.accepts l = .ok false := by
  have hbehind := accepts_behind l [] fun p hp => ⟨hb p hp, fun ha => h ⟨p, hp, ha⟩⟩
  rwa [List.append_nil] at hbehind

variable (env) in
theorem accepts_unblank (hb : ∀ p ∈ l, ¬ BlankProfile p) :
    ∃ accepted, env.accepts l = .ok accepted ∧ (accepted = true ↔ ∃ p ∈ l, env.Admits p) := by
  by_cases h : ∃ p ∈ l, env.Admits p
  · refine ⟨true, ?_, iff_of_true rfl h⟩
    rw [← List.append_nil l]
    exact accepts_of_admitted hb h
  · exact ⟨false, accepts_of_none hb h, iff_of_false nofun h⟩

variable (env l) in
/-- No name is admitted in front of the first blank one. -/
def BlankFirst : Prop :=
  ∀ front p back, l = front ++ p :: back → BlankProfile p → (∀ q ∈ front, ¬ BlankProfile q) →
    ∀ q ∈ front, ¬ env.Admits q

theorem accepts_of_blank (h : ∃ p ∈ l, BlankProfile p) (hf : env.BlankFirst l) :
    env.accepts l = .error .blank := by
  obtain ⟨front, p, back, rfl, hp, hfront⟩ := exists_first h
  rw [accepts_behind front _ fun q hq => ⟨hfront q hq, hf front p back rfl hp hfront q hq⟩]
  exact accepts_blank hp

theorem ruled_iff : env.Ruled l ↔ env.BlankFirst l := by
  constructor
  · rintro hruled front p back rfl hp hfront q hq ha
    obtain ⟨err, herr⟩ := hruled.error_iff.mpr ⟨p, by simp, hp⟩
    rw [accepts_of_admitted hfront ⟨q, hq, ha⟩] at herr
    cases herr
  · intro hf
    constructor
    · refine ⟨fun ⟨err, herr⟩ => ?_, fun hb => ⟨.blank, accepts_of_blank hb hf⟩⟩
      by_contra hnone
      obtain ⟨accepted, hok, -⟩ := accepts_unblank env fun p hp hb => hnone ⟨p, hp, hb⟩
      rw [hok] at herr
      cases herr
    · intro hb
      obtain ⟨accepted, hok, hadmitted⟩ := accepts_unblank env hb
      rw [hok, Except.ok.injEq]
      exact hadmitted

variable (env l) in
/-- No name is blank, or none is admitted but blank ones. -/
def OrderFree : Prop :=
  (∀ p ∈ l, ¬ BlankProfile p) ∨ ∀ p ∈ l, ¬ BlankProfile p → ¬ env.Admits p

theorem OrderFree.blankFirst (h : env.OrderFree l) : env.BlankFirst l := by
  rintro front p back rfl hp hfront q hq
  rcases h with hnone | hnone
  · exact absurd hp (hnone p (by simp))
  · exact hnone q (by simp [hq]) (hfront q hq)

theorem OrderFree.perm {l' : List String} (h : env.OrderFree l) (hl : l'.Perm l) :
    env.OrderFree l' := by
  rcases h with hnone | hnone
  · exact .inl fun p hp => hnone p (hl.mem_iff.mp hp)
  · exact .inr fun p hp => hnone p (hl.mem_iff.mp hp)

theorem accepts_congr {l' : List String} (hf : env.BlankFirst l) (hf' : env.BlankFirst l')
    (hm : ∀ p, p ∈ l' ↔ p ∈ l) : env.accepts l' = env.accepts l := by
  by_cases hb : ∃ p ∈ l, BlankProfile p
  · rw [accepts_of_blank hb hf, accepts_of_blank (by simpa only [hm] using hb) hf']
  · have hunblank : ∀ p ∈ l, ¬ BlankProfile p := fun p hp h => hb ⟨p, hp, h⟩
    obtain ⟨a, ha, hadmitted⟩ := accepts_unblank env hunblank
    obtain ⟨a', ha', hadmitted'⟩ := accepts_unblank env fun p hp => hunblank p ((hm p).mp hp)
    simp only [hm] at hadmitted'
    rw [ha, ha', Bool.eq_iff_iff.mpr (hadmitted'.trans hadmitted.symm)]

theorem accepts_perm_iff :
    (∀ l', l'.Perm l → env.accepts l' = env.accepts l) ↔ env.OrderFree l := by
  constructor
  · intro hsame
    by_contra hnot
    rw [OrderFree, not_or] at hnot
    push Not at hnot
    obtain ⟨⟨blank, hm, hb⟩, p, hp, hpb, ha⟩ := hnot
    -- either name decides the list when it stands in front
    have hblank := hsame _ (List.perm_cons_erase hm).symm
    have hadmitted := hsame _ (List.perm_cons_erase hp).symm
    rw [accepts_blank hb] at hblank
    rw [accepts_admitted hpb ha, ← hblank] at hadmitted
    cases hadmitted
  · intro h l' hl
    exact accepts_congr h.blankFirst (h.perm hl).blankFirst fun p => hl.mem_iff

end Environment

namespace DocumentReader

def profileNames (reader : DocumentReader) (e : Element) : List String :=
  Text.tokenize (e.attr "profile") reader.delimiters

theorem judge_names {reader : DocumentReader} {env : Environment} {e : Element}
    (h : reader.profileNames e ≠ []) : reader.judge env e = env.accepts (reader.profileNames e) := by
  have hspec : Text.allBlank (e.attr "profile") = false := by
    rw [Bool.eq_false_iff]
    exact fun hb => h (Text.tokenize_blank reader.delimiters hb)
  have hsome : (reader.profileNames e).isEmpty = false := List.isEmpty_eq_false_iff.mpr h
  unfold judge
  simp only [hspec, Bool.false_eq_true, if_false]
  exact if_neg (Bool.not_eq_true _ ▸ hsome)

end DocumentReader

/-- A list of profile names is decided by the rule that asks for no order if and only if no name is
admitted in front of the first blank one. It comes to the same in every order if and only if no name is
blank or none is admitted, and profile attributes with these names are judged alike then. -/
theorem accepts_order_iff (env : Environment) (l : List String) :
    (env.Ruled l ↔ env.BlankFirst l) ∧
      ((∀ l', l'.Perm l → env.accepts l' = env.accepts l) ↔ env.OrderFree l) ∧
      ∀ (reader : DocumentReader) (e e' : Element), reader.profileNames e = l → l ≠ [] →
        (reader.profileNames e').Perm l → env.OrderFree l →
          reader.judge env e' = reader.judge env e := by
  refine ⟨Environment.ruled_iff, Environment.accepts_perm_iff, ?_⟩
  rintro reader e e' rfl hne hl hfree
  have hne' : reader.profileNames e' ≠ [] := fun h => hne (List.nil_perm.mp (h ▸ hl))
  rw [DocumentReader.judge_names hne, DocumentReader.judge_names hne']
  exact Environment.accepts_perm_iff.mpr hfree _ hl

def devEnvironment : Environment := .create (some ["dev"]) Environment.standardDefaults []

def profiledBeans (profile : String) : Element := ⟨"beans", none, [("profile", profile)], [], some 1⟩

theorem hiddenBlank_order_matters :
    BlankProfile " " ∧ devEnvironment.accepts ["dev", " "] = .ok true ∧
      devEnvironment.accepts [" ", "dev"] = .error .blank ∧
        ¬ devEnvironment.Ruled ["dev", " "] ∧ ¬ devEnvironment.OrderFree ["dev", " "] ∧
          DocumentReader.judge {} devEnvironment (profiledBeans "dev,!") = .ok true ∧
            DocumentReader.judge {} devEnvironment (profiledBeans "!,dev") = .error .blank := by
  have hblank : BlankProfile " " := .inl (by decide)
  have haccepted : devEnvironment.accepts ["dev", " "] = .ok true := by decide +kernel
  have hrefused : devEnvironment.accepts [" ", "dev"] = .error .blank := by decide +kernel
  refine ⟨hblank, haccepted, hrefused, fun hruled => ?_, fun hfree => ?_, ?_⟩
  · obtain ⟨err, herr⟩ := hruled.error_iff.mpr ⟨" ", by simp, hblank⟩
    rw [haccepted] at herr
    cases herr
  · have hsame := Environment.accepts_perm_iff.mpr hfree _ (List.Perm.swap _ _ [])
    rw [haccepted, hrefused] at hsame
    cases hsame
  · constructor <;> decide +kernel

end BeanCatalog
