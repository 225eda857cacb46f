import BeanCatalog.Proofs.Loading.Blindness

namespace BeanCatalog

def plainUri (uri : Option String) : Option String := if isDefaultNamespace uri then none else uri

namespace Element

mutual

/-- An element with the default namespace left out of it, at every depth. -/
def plain : Element → Element
  | ⟨tag, uri, attributes, contents, line⟩ =>
    ⟨tag, plainUri uri, attributes, plainContents contents, line⟩

def plainContents : List (Content Element) → List (Content Element)
  | [] => []
  | .text s :: rest => .text s :: plainContents rest
  | .element e :: rest => .element (plain e) :: plainContents rest

end

end Element

def Failure.plain : Failure → Failure
  | .reported ⟨fault, element, none, resource⟩ =>
    .reported ⟨fault, element.map Element.plain, none, resource⟩
  | .reported ⟨fault, element, some cause, resource⟩ =>
    .reported ⟨fault, element.map Element.plain, some cause.plain, resource⟩
  | f => f

def ProblemOf.plain (p : Problem) : Problem :=
  { p with element := p.element.map Element.plain, cause := p.cause.map Failure.plain }

def JournalEntry.plain : JournalEntry → JournalEntry
  | .problem severity p => .problem severity p.plain
  | .opened scope => .opened scope.plain
  | .closed scope => .closed scope.plain
  | entry => entry

def Session.plain (s : Session) : Session := { s with entries := s.entries.map JournalEntry.plain }

def LoadOutcome.plain : LoadOutcome → LoadOutcome
  | (o, loaded) => (o.mapError Failure.plain, loaded)

section

variable (uri : Option String)

@[simp] theorem isDefaultNamespace_plainUri :
    isDefaultNamespace (plainUri uri) = isDefaultNamespace uri := by
  unfold plainUri
  cases h : isDefaultNamespace uri with
  | true => rfl
  | false => exact h

theorem plainUri_plainUri : plainUri (plainUri uri) = plainUri uri := by
  rw [plainUri, isDefaultNamespace_plainUri]
  unfold plainUri
  split <;> rfl

end

namespace Element

mutual

theorem plain_plain : (e : Element) → e.plain.plain = e.plain
  | ⟨tag, uri, attributes, contents, line⟩ => by
    rw [plain, plain, plainUri_plainUri, plainContents_plainContents contents]

theorem plainContents_plainContents : (contents : List (Content Element)) →
    plainContents (plainContents contents) = plainContents contents
  | [] => rfl
  | .text s :: rest => by
    rw [plainContents, plainContents, plainContents_plainContents rest]
  | .element e :: rest => by
    rw [plainContents, plainContents, plain_plain e, plainContents_plainContents rest]

end

variable (e : Element) (name : String)

@[simp] theorem plain_tag : e.plain.tag = e.tag := by cases e; rfl

@[simp] theorem plain_line : e.plain.line = e.line := by cases e; rfl

@[simp] theorem plain_attributes : e.plain.attributes = e.attributes := by cases e; rfl

@[simp] theorem plain_kind : e.plain.kind = e.kind := by cases e; rfl

@[simp] theorem plain_attr : e.plain.attr name = e.attr name := by cases e; rfl

@[simp] theorem plain_attr? : e.plain.attr? name = e.attr? name := by cases e; rfl

@[simp] theorem plain_isDefault : e.plain.isDefault = e.isDefault := by
  cases e
  exact isDefaultNamespace_plainUri _

theorem plain_uri {e : Element} (h : e.isDefault = false) : e.plain.uri = e.uri := by
  cases e
  exact if_neg (Bool.eq_false_iff.mp h)

theorem filterMap_plainContents {β : Type} (f g : Content Element → Option β)
    (ht : ∀ s, g (.text s) = f (.text s)) (he : ∀ e, g (.element e.plain) = f (.element e))
    (contents : List (Content Element)) :
    (plainContents contents).filterMap g = contents.filterMap f := by
  induction contents with
  | nil => rfl
  | cons c rest ih =>
    cases c with
    | text s => rw [plainContents, List.filterMap_cons, List.filterMap_cons, ht, ih]
    | element e => rw [plainContents, List.filterMap_cons, List.filterMap_cons, he, ih]

@[simp] theorem plain_text : e.plain.text = e.text := by
  cases e
  exact congrArg String.join
    (filterMap_plainContents Content.text? Content.text? (fun _ => rfl) (fun _ => rfl) _)

theorem plain_children : e.plain.children = e.children.map plain := by
  cases e with
  | mk tag uri attributes contents line =>
    change (plainContents contents).filterMap Content.element? =
      (contents.filterMap Content.element?).map plain
    rw [List.map_filterMap]
    exact filterMap_plainContents (fun c => c.element?.map plain) Content.element? (fun _ => rfl)
      (fun _ => rfl) contents

end Element

theorem Failure.plain_reported (p : Problem) :
    (Failure.reported p).plain = .reported p.plain := by
  obtain ⟨fault, element, cause, resource⟩ := p
  cases cause with
  | none => rw [Failure.plain]; rfl
  | some cause => rw [Failure.plain]; rfl

@[simp] theorem ProblemOf.plain_text (p : Problem) : p.plain.text = p.text := by
  have hline : (p.element.map Element.plain).bind (·.line) = p.element.bind (·.line) := by
    cases p.element with
    | none => rfl
    | some e => exact e.plain_line
  unfold ProblemOf.text ProblemOf.plain
  rw [hline]

@[simp] theorem Failure.plain_kind (f : Failure) : f.plain.kind = f.kind := by
  cases f with
  | reported p =>
    rw [Failure.plain_reported]
    rfl
  | _ => rfl

@[simp] theorem Failure.plain_message (f : Failure) : f.plain.message = f.message := by
  cases f with
  | reported p =>
    rw [Failure.plain_reported]
    exact p.plain_text
  | _ => rfl

theorem Session.plain_eq_iff {s s' : Session} :
    s.plain = s'.plain ↔ s.registry = s'.registry ∧
      s.entries.map JournalEntry.plain = s'.entries.map JournalEntry.plain ∧
      s.loading = s'.loading ∧ s.usedNames = s'.usedNames := by
  rw [Session.plain, Session.plain, Session.mk.injEq]

theorem Session.eq_of_plain {s s' : Session} (h : s.plain = s'.plain) :
    s' = { s with entries := s'.entries } := by
  obtain ⟨hr, -, hl, hu⟩ := Session.plain_eq_iff.mp h
  rw [hr, hl, hu]

theorem mapError_plain {α : Type} {o o' : Except Failure α}
    (h : o.mapError Failure.plain = o'.mapError Failure.plain) :
    (∃ a, o = .ok a ∧ o' = .ok a) ∨
      ∃ f f', o = .error f ∧ o' = .error f' ∧ f.plain = f'.plain := by
  cases o with
  | ok a =>
    cases o' with
    | ok a' =>
      cases h
      exact .inl ⟨a, rfl, rfl⟩
    | error f' => cases h
  | error f =>
    cases o' with
    | ok a' => cases h
    | error f' => exact .inr ⟨f, f', rfl, rfl, Except.error.inj h⟩

theorem mapError_kind_message {α : Type} {o o' : Except Failure α}
    (h : o.mapError Failure.plain = o'.mapError Failure.plain) :
    o.mapError (fun f => (f.kind, f.message)) = o'.mapError (fun f => (f.kind, f.message)) := by
  rcases mapError_plain h with ⟨a, rfl, rfl⟩ | ⟨f, f', rfl, rfl, hf⟩
  · rfl
  · have hkind : f.kind = f'.kind := by rw [← f.plain_kind, hf, f'.plain_kind]
    have hmessage : f.message = f'.message := by rw [← f.plain_message, hf, f'.plain_message]
    exact congrArg Except.error (Prod.ext hkind hmessage)

/-- Steps that come to the same from sessions that are the same, up to the spellings in what they
enter. What they come to is compared by a view of it. -/
def UpToSpelling {β : Type} (view : β → β) (act act' : StateM Session β) : Prop :=
  ∀ s s' : Session, s.plain = s'.plain →
    view (act s).1 = view (act' s').1 ∧ (act s).2.plain = (act' s').2.plain

namespace UpToSpelling

variable {β γ : Type} {view : β → β} {act act' act'' : StateM Session β}

theorem symm (h : UpToSpelling view act act') : UpToSpelling view act' act := by
  intro s s' hs
  obtain ⟨hb, ht⟩ := h s' s hs.symm
  exact ⟨hb.symm, ht.symm⟩

theorem trans (h : UpToSpelling view act act') (h' : UpToSpelling view act' act'') :
    UpToSpelling view act act'' := by
  intro s s' hs
  obtain ⟨hb, ht⟩ := h s s' hs
  obtain ⟨hb', ht'⟩ := h' s' s' rfl
  exact ⟨hb.trans hb', ht.trans ht'⟩

theorem bind {view' : γ → γ} {next next' : β → StateM Session γ} (ha : UpToSpelling view act act')
    (hn : ∀ b b', view b = view b' → UpToSpelling view' (next b) (next' b')) :
    UpToSpelling view' (act >>= next) (act' >>= next') := by
  intro s s' hs
  obtain ⟨hb, ht⟩ := ha s s' hs
  exact hn _ _ hb _ _ ht

theorem pure {b b' : β} (h : view b = view b') :
    UpToSpelling view (Pure.pure b) (Pure.pure b') :=
  fun _ _ hs => ⟨h, hs⟩

theorem of_blind (h : Blind act) : UpToSpelling view act act := by
  intro s s' hs
  obtain ⟨b, t, journal, -, -, hact, -⟩ := h s
  -- What is entered is the very same, and only what stands before it may be spelt otherwise.
  have hentries := (Session.plain_eq_iff.mp hs).2.1
  rw [Session.eq_of_plain hs, hact s'.entries, show act s = _ from hact s.entries]
  refine ⟨rfl, Session.plain_eq_iff.mpr ⟨rfl, ?_, rfl, rfl⟩⟩
  rw [List.map_append, List.map_append, hentries]

end UpToSpelling

namespace Reading

def UpToSpelling {α : Type} (act act' : Reading α) : Prop :=
  BeanCatalog.UpToSpelling (Except.mapError Failure.plain) act.run act'.run

namespace UpToSpelling

variable {α β : Type} {act act' : Reading α}

theorem of_blind (h : Reading.Blind act) : UpToSpelling act act :=
  BeanCatalog.UpToSpelling.of_blind h

theorem pure (a : α) : UpToSpelling (Pure.pure a) (Pure.pure a) := of_blind (.pure a)

theorem bind {next next' : α → Reading β} (ha : UpToSpelling act act')
    (hn : ∀ a, UpToSpelling (next a) (next' a)) : UpToSpelling (act >>= next) (act' >>= next') := by
  change BeanCatalog.UpToSpelling _ (act.run >>= ExceptT.bindCont next)
    (act'.run >>= ExceptT.bindCont next')
  refine BeanCatalog.UpToSpelling.bind ha fun o o' ho => ?_
  rcases mapError_plain ho with ⟨a, rfl, rfl⟩ | ⟨f, f', rfl, rfl, hf⟩
  · exact hn a
  · exact BeanCatalog.UpToSpelling.pure (congrArg Except.error hf)

theorem throw {f f' : Failure} (h : f.plain = f'.plain) :
    UpToSpelling (throw f : Reading α) (throw f') :=
  BeanCatalog.UpToSpelling.pure (congrArg Except.error h)

theorem enter {entry entry' : JournalEntry} (h : entry.plain = entry'.plain) :
    UpToSpelling (enter entry) (enter entry') := by
  intro s s' hs
  obtain ⟨hr, he, hl, hu⟩ := Session.plain_eq_iff.mp hs
  exact ⟨rfl, Session.plain_eq_iff.mpr ⟨hr, congrArg₂ List.cons h he, hl, hu⟩⟩

theorem session {next next' : Session → Reading α}
    (hn : ∀ s s' : Session, s.plain = s'.plain → UpToSpelling (next s) (next' s')) :
    UpToSpelling ((get : Reading Session) >>= next) ((get : Reading Session) >>= next') :=
  fun s s' hs => hn s s' hs s s' hs

theorem withFreshNames {act act' : Reading Unit} (ha : UpToSpelling act act') :
    UpToSpelling (withFreshNames act) (withFreshNames act') := by
  intro s s' hs
  obtain ⟨hr, he, hl, hu⟩ := Session.plain_eq_iff.mp hs
  have hfresh : ({ s with usedNames := [] } : Session).plain =
      ({ s' with usedNames := [] } : Session).plain :=
    Session.plain_eq_iff.mpr ⟨hr, he, hl, rfl⟩
  obtain ⟨ho, ht⟩ := ha _ _ hfresh
  obtain ⟨hr', he', hl', -⟩ := Session.plain_eq_iff.mp ht
  exact ⟨ho, Session.plain_eq_iff.mpr ⟨hr', he', hl', hu⟩⟩

theorem lift {act act' : StateM Session LoadOutcome} {next next' : LoadOutcome → Reading α}
    (ha : BeanCatalog.UpToSpelling LoadOutcome.plain act act')
    (hn : ∀ outcome outcome' : LoadOutcome, outcome.plain = outcome'.plain →
      UpToSpelling (next outcome) (next' outcome')) :
    UpToSpelling (liftM act >>= next) (liftM act' >>= next') :=
  BeanCatalog.UpToSpelling.bind ha hn

theorem ite (b : Bool) {other other' : Reading α} (ha : UpToSpelling act act')
    (ho : UpToSpelling other other') :
    UpToSpelling (if b then act else other) (if b then act' else other') := by
  cases b with
  | true => exact ha
  | false => exact ho

theorem foldlM {step step' : β → α → Reading β} (h : ∀ b a, UpToSpelling (step b a) (step' b a))
    (l : List α) (b : β) : UpToSpelling (l.foldlM step b) (l.foldlM step' b) := by
  induction l generalizing b with
  | nil => exact .pure b
  | cons a l ih =>
    rw [List.foldlM_cons, List.foldlM_cons]
    exact .bind (h b a) ih

theorem take (reporter : Reporter) (severity : Severity) {p p' : Problem} (h : p.plain = p'.plain) :
    UpToSpelling (reporter.take severity p) (reporter.take severity p') := by
  have htext : p'.text = p.text := by rw [← p'.plain_text, ← h, p.plain_text]
  refine .bind (.enter (congrArg (JournalEntry.problem severity) h)) fun _ => ?_
  rw [htext]
  have hremark : UpToSpelling (remark (.problem severity p.text))
      (remark (.problem severity p.text)) := .of_blind (.enter _)
  have hreported : (Failure.reported p).plain = (Failure.reported p').plain := by
    rw [Failure.plain_reported, Failure.plain_reported, h]
  cases reporter with
  | collecting => exact hremark
  | failFast =>
    cases severity with
    | error => exact .throw hreported
    | warning => exact hremark
  | unable => exact .throw rfl

end UpToSpelling

end Reading

def Importer.BlindToSpelling (importer : Importer) : Prop :=
  Importer.Related Reading.UpToSpelling (UpToSpelling LoadOutcome.plain) importer importer

theorem Importer.Blind.toSpelling {importer : Importer} (h : importer.Blind) :
    importer.BlindToSpelling where
  location location loaded := .of_blind (h.location location loaded)
  resource r := .of_blind (h.resource r)

end BeanCatalog
