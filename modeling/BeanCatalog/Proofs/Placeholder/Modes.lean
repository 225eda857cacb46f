import BeanCatalog.Proofs.Placeholder.Outcome

namespace BeanCatalog

/-- A required step beside a lenient one. Either they come to the same and nothing is left in place, or
the required step fails for a placeholder that the lenient one leaves in place. -/
structure Tolerates {α : Type} (required lenient : Resolution α) : Prop where
  notes (noted : List String) : noted.length ≤ (lenient noted).2.length
  same_or_left (noted : List String) :
    (required noted = lenient noted ∧ (lenient noted).2 = noted) ∨
      (∃ key text, (required noted).1 = .error (.unresolved key text)) ∧
        noted.length < (lenient noted).2.length

namespace Tolerates

variable {α β : Type} {required lenient : Resolution α} {next nextLenient : α → Resolution β}

theorem of_silent {act : Resolution α} (h : ∀ noted, (act noted).2 = noted) : Tolerates act act where
  notes noted := (congrArg List.length (h noted)).ge
  same_or_left noted := .inl ⟨rfl, h noted⟩

theorem notes_bind (hn : ∀ a, Tolerates (next a) (nextLenient a)) (noted : List String) :
    (lenient noted).2.length ≤ ((lenient >>= nextLenient) noted).2.length := by
  rcases hl : lenient noted with ⟨err | a, later⟩
  · rw [Resolution.bind_error nextLenient hl]
  · rw [Resolution.bind_ok nextLenient hl]
    exact (hn a).notes later

theorem bind (ha : Tolerates required lenient) (hn : ∀ a, Tolerates (next a) (nextLenient a)) :
    Tolerates (required >>= next) (lenient >>= nextLenient) where
  notes noted := (ha.notes noted).trans (notes_bind hn noted)
  same_or_left noted := by
    rcases ha.same_or_left noted with ⟨hsame, hsilent⟩ | ⟨⟨key, text, hfails⟩, hleft⟩
    · rcases hl : lenient noted with ⟨err | a, later⟩
      · rw [hl] at hsame hsilent
        rw [Resolution.bind_error next hsame, Resolution.bind_error nextLenient hl]
        exact .inl ⟨rfl, hsilent⟩
      · rw [hl] at hsame hsilent
        obtain rfl : later = noted := hsilent
        rw [Resolution.bind_ok next hsame, Resolution.bind_ok nextLenient hl]
        exact (hn a).same_or_left later
    · -- the required step has failed, and what comes after takes back no note
      refine .inr ⟨⟨key, text, ?_⟩, hleft.trans_le (notes_bind hn noted)⟩
      rcases hr : required noted with ⟨outcome, later⟩
      rw [hr] at hfails
      obtain rfl : outcome = .error (.unresolved key text) := hfails
      rw [Resolution.bind_error next hr]

theorem relation :
    ResolutionRelation .required .lenient fun _ required lenient => Tolerates required lenient where
  done a := of_silent fun _ => rfl
  bind := bind
  circular body text := of_silent fun _ => rfl
  missing key text piece := by
    constructor
    · intro noted
      exact Nat.le_succ _
    · intro noted
      exact .inr ⟨⟨_, _, rfl⟩, Nat.lt_succ_self _⟩

end Tolerates

def CircularOnly {α : Type} (act : Resolution α) : Prop :=
  ∀ noted err, (act noted).1 = .error err → err = .tooDeep ∨ ∃ body text, err = .circular body text

namespace CircularOnly

variable {α β : Type}

theorem bind {act : Resolution α} {next : α → Resolution β} (ha : CircularOnly act)
    (hn : ∀ a, CircularOnly (next a)) : CircularOnly (act >>= next) := by
  intro noted err h
  rcases hact : act noted with ⟨err' | a, later⟩
  · rw [Resolution.bind_error next hact] at h
    obtain rfl : err' = err := Except.error.inj h
    exact ha noted err' (congrArg Prod.fst hact)
  · rw [Resolution.bind_ok next hact] at h
    exact hn a later err h

theorem relation : ResolutionRelation .lenient .lenient fun _ act _ => CircularOnly act where
  done a := by
    rintro noted err ⟨⟩
  bind := bind
  circular body text := by
    rintro noted err ⟨⟩
    exact .inr ⟨body, text, rfl⟩
  missing key text piece := by
    rintro noted err ⟨⟩

end CircularOnly

section

variable (properties : Table String) (text : String)

theorem resolvePlaceholders_eq (mode : PlaceholderMode) (depth : Nat) :
    resolvePlaceholders properties mode text depth =
      ((resolveChars properties mode depth [] text.toList []).1.map String.ofList,
        (resolveChars properties mode depth [] text.toList []).2.reverse) := rfl

variable {properties text}

theorem resolvePlaceholders_ended {mode : PlaceholderMode} {m n : Nat}
    (hm : (resolvePlaceholders properties mode text m).1 ≠ .error .tooDeep)
    (hn : (resolvePlaceholders properties mode text n).1 ≠ .error .tooDeep) :
    resolvePlaceholders properties mode text m = resolvePlaceholders properties mode text n := by
  have hchars : ∀ depth, (resolvePlaceholders properties mode text depth).1 ≠ .error .tooDeep →
      (resolveChars properties mode depth [] text.toList []).1 ≠ .error .tooDeep := by
    intro depth h he
    rw [resolvePlaceholders_eq, he] at h
    exact h rfl
  have hdeeper := resolveChars_deeper properties mode n (hchars m hm)
  rw [Nat.add_comm, resolveChars_deeper properties mode m (hchars n hn)] at hdeeper
  rw [resolvePlaceholders_eq, resolvePlaceholders_eq, hdeeper]

theorem lenient_error {depth : Nat} {err : PlaceholderError}
    (h : (resolvePlaceholders properties .lenient text depth).1 = .error err) :
    err = .tooDeep ∨ ∃ body value, err = .circular body value := by
  have hcircular : CircularOnly (resolveChars properties .lenient depth [] text.toList) :=
    CircularOnly.relation.resolveChars properties 0
      (fun visiting text noted err h => .inl (Except.error.inj h).symm) depth [] text.toList
  rw [resolvePlaceholders_eq] at h
  cases hr : (resolveChars properties .lenient depth [] text.toList []).1 with
  | error err' =>
    rw [hr] at h
    obtain rfl : err' = err := Except.error.inj h
    exact hcircular [] err' hr
  | ok cs =>
    rw [hr] at h
    cases h

theorem required_iff (depth : Nat) (s : String) :
    (resolvePlaceholders properties .required text depth).1 = .ok s ↔
      resolvePlaceholders properties .lenient text depth = (.ok s, []) := by
  have htolerates : Tolerates (resolveChars properties .required depth [] text.toList)
      (resolveChars properties .lenient depth [] text.toList) :=
    Tolerates.relation.resolveChars properties 0
      (fun visiting text => .of_silent fun _ => rfl) depth [] text.toList
  simp only [resolvePlaceholders_eq, Prod.mk.injEq, List.reverse_eq_nil_iff]
  rcases htolerates.same_or_left [] with ⟨hsame, hnil⟩ | ⟨⟨key, value, hfails⟩, hleft⟩
  · rw [hsame]
    exact (and_iff_left hnil).symm
  · refine iff_of_false ?_ fun h => ?_
    · rw [hfails]
      nofun
    · rw [h.2] at hleft
      exact absurd hleft (Nat.lt_irrefl 0)

variable (properties text) in
/-- A text is filled in as required if and only if it is filled in leniently with nothing left in place,
and it becomes the same then. Lenient resolution fails for circular placeholders only, in texts that are
never filled in as required. -/
theorem required_iff_nothing_left :
    (∀ depth s, (resolvePlaceholders properties .required text depth).1 = .ok s ↔
      resolvePlaceholders properties .lenient text depth = (.ok s, [])) ∧
    ∀ depth err, (resolvePlaceholders properties .lenient text depth).1 = .error err → err ≠ .tooDeep →
      (∃ body value, err = .circular body value) ∧
        ∀ other s, (resolvePlaceholders properties .required text other).1 ≠ .ok s := by
  refine ⟨required_iff, fun depth err herr hne => ⟨(lenient_error herr).resolve_left hne, ?_⟩⟩
  intro other s hs
  have hlenient := (required_iff other s).mp hs
  have hsame := resolvePlaceholders_ended (m := depth) (n := other)
    (by rw [herr]; exact fun h => hne (Except.error.inj h)) (by rw [hlenient]; nofun)
  rw [hsame, hlenient] at herr
  cases herr

end

def mirror : Table String := [("a", "$\x7ba\x7d")]

theorem mirror_never_filled :
    (resolvePlaceholders mirror .lenient "$\x7ba\x7d" 3).1 = .error (.circular "a" "$\x7ba\x7d") ∧
      ∀ depth s, (resolvePlaceholders mirror .required "$\x7ba\x7d" depth).1 ≠ .ok s := by
  have hcircular : (resolvePlaceholders mirror .lenient "$\x7ba\x7d" 3).1 =
      .error (.circular "a" "$\x7ba\x7d") := by
    decide +kernel
  have hne : PlaceholderError.circular "a" "$\x7ba\x7d" ≠ .tooDeep := nofun
  exact ⟨hcircular, ((required_iff_nothing_left mirror "$\x7ba\x7d").2 3 _ hcircular hne).2⟩

end BeanCatalog
