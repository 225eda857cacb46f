import BeanCatalog.Proofs.Loading.Ending
import BeanCatalog.Proofs.Reading.Problems

/-!
Visits: the elements that loading comes to, one session after the other. A failure that ends a visit
ends every visit around it, so it can be followed to the import that it comes from.
-/

namespace BeanCatalog

structure Opening where
  depth : Nat
  resource : Resource
  outer : Defaults
  root : Element
  session : Session

/-- An element about to be read, and what stands behind it in its scope. -/
structure Visit where
  depth : Nat
  resource : Resource
  defaults : Defaults
  element : Element
  rest : List (Content Element)
  session : Session

/-- The failures that may leave an element: its placeholders cannot be resolved, there is no reader, or
it lies too deep. -/
def Failure.Leaves (f : Failure) : Prop :=
  f.kind = .placeholder ∨ f.kind = .readerState ∨ f.kind = .exhausted

namespace DocumentReader

variable {reader : DocumentReader} {scope : Scope} {s t : Session} {f : Failure}

theorem readContents_append {front : List (Content Element)} (rest : List (Content Element))
    (h : reader.readContents scope front s = (.ok (), t)) :
    reader.readContents scope (front ++ rest) s = reader.readContents scope rest t := by
  induction front generalizing s with
  | nil =>
    rw [readContents] at h
    cases h
    rfl
  | cons c front ih =>
    cases c with
    | text x =>
      rw [List.cons_append, readContents]
      rw [readContents] at h
      exact ih h
    | element e =>
      rw [List.cons_append, readContents_element]
      rw [readContents_element] at h
      rcases he : reader.readElement scope e s with ⟨g | ⟨⟩, u⟩
      · rw [Reading.bind_error _ he] at h
        cases h
      · rw [Reading.bind_ok _ he] at h ⊢
        exact ih h

theorem readContents_fails {contents : List (Content Element)}
    (h : (reader.readContents scope contents s).1 = .error f) :
    ∃ front e rest t, contents = front ++ .element e :: rest ∧
      reader.readContents scope front s = (.ok (), t) ∧
      (reader.readElement scope e t).1 = .error f := by
  induction contents generalizing s with
  | nil =>
    rw [readContents] at h
    cases h
  | cons c contents ih =>
    cases c with
    | text x =>
      rw [readContents] at h
      obtain ⟨front, e, rest, t, rfl, hf, he⟩ := ih h
      refine ⟨.text x :: front, e, rest, t, rfl, ?_, he⟩
      rw [readContents]
      exact hf
    | element e =>
      rw [readContents_element] at h
      rcases he : reader.readElement scope e s with ⟨g | ⟨⟩, u⟩
      · rw [Reading.bind_error _ he] at h
        refine ⟨[], e, contents, s, rfl, ?_, ?_⟩
        · rw [readContents]
          rfl
        · rw [he]
          exact h
      · rw [Reading.bind_ok _ he] at h
        obtain ⟨front, e', rest, t, rfl, hf, he'⟩ := ih h
        refine ⟨.element e :: front, e', rest, t, rfl, ?_, he'⟩
        rw [readContents_element, Reading.bind_ok _ he]
        exact hf

end DocumentReader

namespace Loader

variable (l : Loader)

def readOpening (o : Opening) : Except Failure Unit × Session :=
  l.documents.readScope (l.context (l.importer o.depth) o.resource) o.outer o.root o.session

def readVisit (v : Visit) : Except Failure Unit × Session :=
  l.documents.readElement ⟨l.context (l.importer v.depth) v.resource, v.defaults⟩ v.element v.session

def Admits (o : Opening) (t : Session) : Prop :=
  o.root.isDefault = true ∧ ∃ u v,
    l.documents.profilesAccepted (l.context (l.importer o.depth) o.resource) o.root o.session =
      (.ok true, u) ∧
    (do
      let ctx := l.context (l.importer o.depth) o.resource
      ctx.fire (.defaults (o.outer.enter o.root).resolve (ctx.source o.root))
      Reading.enter (.opened o.root) : Reading Unit) u = (.ok (), v) ∧
    t = { v with usedNames := [] }

/-- A visit to an import loads what that names as far as `q`, which it comes to in the session `u`.
The depth is the one at which `q` is loaded. -/
inductive ComesTo (v : Visit) : Nat → LocationKind → Resource → Session → Prop
  | intro {depth count : Nat} {kind : LocationKind} {q : Resource} {front back loaded : List Resource}
      {u : Session} (hd : v.element.isDefault = true) (hk : v.element.kind = .importing)
      (hn : l.Seeks v.resource v.element kind (.ok (front ++ q :: back)))
      (hdepth : v.depth = depth + 1)
      (hf : l.loadAll (l.importer depth) 0 [] front v.session = ((.ok count, loaded), u)) :
      ComesTo v depth kind q u

/-- The import at a visit cannot be told to name anything, for a reason that it does not report: its
URL does not split, its pattern leads through a NUL, or a name in an absolute location is too long. -/
inductive Unlocated (v : Visit) : Failure → Prop
  | url {depth : Nat} {kind : LocationKind} {err : UrlError} (hd : v.element.isDefault = true)
      (hk : v.element.kind = .importing) (hdepth : v.depth = depth + 1)
      (hn : l.Seeks v.resource v.element kind (.error (.url err))) : Unlocated v (.url err)
  | nul {depth : Nat} {kind : LocationKind} (hd : v.element.isDefault = true)
      (hk : v.element.kind = .importing) (hdepth : v.depth = depth + 1)
      (hn : l.Seeks v.resource v.element kind (.error (.file .nulInPath))) :
      Unlocated v (.file .nulInPath)
  | long {depth : Nat} {q : Resource} {u : Session} (h : l.ComesTo v depth .absolute q u)
      (hl : u.loading.any (Resource.same q) = false)
      (hp : q.present l.workspace = .error (.file .nameTooLong)) : Unlocated v (.file .nameTooLong)

/-- The scopes that a visit opens: a scope inside its own, and the documents that an import names. -/
inductive Opens (v : Visit) : Opening → Prop
  | nested (hd : v.element.isDefault = true) (hk : v.element.kind = .beans) :
      Opens v ⟨v.depth, v.resource, v.defaults, v.element, v.session⟩
  | imported {depth : Nat} {kind : LocationKind} {q : Resource} {u : Session} {doc : Element}
      (h : l.ComesTo v depth kind q u) (hl : u.loading.any (Resource.same q) = false)
      (hp : q.present l.workspace = .ok true) (hd : l.Document q doc) :
      Opens v ⟨depth, q, [], doc, { u with
        loading := q :: u.loading
        entries := .began q :: .remark (.loading q.description) :: u.entries }⟩

/-- The visits that reading a scope comes to, in the scope and in all that opens from it. -/
inductive Meets : Opening → Visit → Prop
  | element {o : Opening} {t u : Session} {front rest : List (Content Element)} {e : Element}
      (ha : l.Admits o t) (hc : o.root.contents = front ++ .element e :: rest)
      (hf : l.documents.readContents
        ⟨l.context (l.importer o.depth) o.resource, o.outer.enter o.root⟩ front t = (.ok (), u)) :
      Meets o ⟨o.depth, o.resource, o.outer.enter o.root, e, rest, u⟩
  | inside {o o' : Opening} {v w : Visit} (hv : Meets o v) (ho : l.Opens v o') (hw : Meets o' w) :
      Meets o w

variable {l} {o : Opening} {v : Visit} {f : Failure} {s t : Session}

theorem registerDocument_fails_iff {importer : Importer} {root : Element} {r : Resource} :
    (l.registerDocument importer root r s).1 = .error f ↔
      (l.documents.readScope (l.context importer r) [] root s).1 = .error f := by
  unfold registerDocument DocumentReader.read
  rw [Reading.bind_ok _ (show (get : Reading Session) s = (.ok s, s) from rfl)]
  rcases h : l.documents.readScope (l.context importer r) [] root s with ⟨g | ⟨⟩, t⟩
  · rw [Reading.bind_error _ h]
    constructor <;> exact fun h => congrArg Except.error (Except.error.inj h)
  · rw [Reading.bind_ok _ h]
    constructor <;> exact fun h => by cases h

end Loader

namespace Reading.Quiet

variable {α β : Type} {act : Reading α} {next : α → Reading β} {f : Failure} {s : Session}

theorem not_fails (ha : Quiet .collecting act) : (act s).1 ≠ .error f := by
  obtain ⟨a, t, h, -⟩ := ha.ends s
  rw [h]
  exact fun h => by cases h

theorem fails_after (ha : Quiet .collecting act) (h : ((act >>= next) s).1 = .error f) :
    ∃ a t, act s = (.ok a, t) ∧ (next a t).1 = .error f := by
  obtain ⟨a, t, ht, -⟩ := ha.ends s
  rw [bind_ok next ht] at h
  exact ⟨a, t, ht, h⟩

theorem fails_before (hn : ∀ a, Quiet .collecting (next a)) (h : ((act >>= next) s).1 = .error f) :
    (act s).1 = .error f := by
  rcases ha : act s with ⟨g | a, t⟩
  · rw [bind_error next ha] at h
    exact congrArg Except.error (Except.error.inj h)
  · rw [bind_ok next ha] at h
    exact absurd h (hn a).not_fails

end Reading.Quiet

namespace Loader

variable {l : Loader} {o : Opening} {v : Visit} {f : Failure} {s t : Session}

theorem loadAll_fails {importer : Importer} {rs loaded : List Resource} {count : Nat}
    (h : (l.loadAll importer count loaded rs s).1.1 = .error f) :
    ∃ front q back count' loaded' u, rs = front ++ q :: back ∧
      l.loadAll importer count loaded front s = ((.ok count', loaded'), u) ∧
      (l.loadResource importer q u).1 = .error f := by
  induction rs generalizing count loaded s with
  | nil => cases h
  | cons r rs ih =>
    rw [loadAll] at h
    rcases hr : l.loadResource importer r s with ⟨g | n, u⟩
    · simp only [bind, StateT.bind, ExceptT.run, hr] at h
      refine ⟨[], r, rs, count, loaded, s, rfl, rfl, ?_⟩
      rw [hr]
      exact h
    · simp only [bind, StateT.bind, ExceptT.run, hr] at h
      obtain ⟨front, q, back, count', loaded', w, rfl, hf, hq⟩ := ih h
      refine ⟨r :: front, q, back, count', loaded', w, rfl, ?_, hq⟩
      rw [loadAll]
      simp only [bind, StateT.bind, ExceptT.run, hr]
      exact hf

theorem loadAll_fails_at {importer : Importer} {front back loaded loaded' : List Resource}
    {q : Resource} {count count' : Nat}
    (hf : l.loadAll importer count loaded front s = ((.ok count', loaded'), t))
    (hq : (l.loadResource importer q t).1 = .error f) :
    (l.loadAll importer count loaded (front ++ q :: back) s).1.1 = .error f := by
  induction front generalizing count loaded s with
  | nil =>
    cases hf
    rw [List.nil_append, loadAll]
    rcases hr : l.loadResource importer q t with ⟨g | n, u⟩
    · rw [hr] at hq
      simp only [bind, StateT.bind, ExceptT.run, hr]
      exact hq
    · rw [hr] at hq
      cases hq
  | cons r front ih =>
    rw [loadAll] at hf
    rw [List.cons_append, loadAll]
    rcases hr : l.loadResource importer r s with ⟨g | n, u⟩
    · simp only [bind, StateT.bind, ExceptT.run, hr] at hf
      cases hf
    · simp only [bind, StateT.bind, ExceptT.run, hr] at hf ⊢
      exact ih hf

theorem loadLocation_fails_iff {importer : Importer} {location : String}
    {loaded : List Resource} :
    (l.loadLocation importer location loaded s).1.1 = .error f ↔
      Location.resources l.workspace location = .error f ∨
        ∃ rs, Location.resources l.workspace location = .ok rs ∧
          (l.loadAll importer 0 loaded rs s).1.1 = .error f := by
  unfold loadLocation
  cases hr : Location.resources l.workspace location with
  | error g =>
    constructor
    · intro h
      exact .inl (congrArg Except.error (Except.error.inj h))
    · rintro (h | ⟨rs, hrs, -⟩)
      · exact congrArg Except.error (Except.error.inj h)
      · cases hrs
  | ok rs =>
    rcases ha : l.loadAll importer 0 loaded rs s with ⟨⟨g | count, more⟩, u⟩
    · simp only [bind, StateT.bind, ha]
      constructor
      · exact fun h => .inr ⟨rs, rfl, ha ▸ h⟩
      · rintro (h | ⟨rs', hrs, h⟩)
        · cases h
        · cases hrs
          rw [ha] at h
          exact h
    · simp only [bind, StateT.bind, ha]
      constructor
      · exact fun h => by cases h
      · rintro (h | ⟨rs', hrs, h⟩)
        · cases h
        · cases hrs
          rw [ha] at h
          cases h

theorem loadResource_fails {depth : Nat} {q : Resource}
    (h : (l.loadResource (l.importer depth) q s).1 = .error f) :
    f.kind.isStore = true ∨ s.loading.any (Resource.same q) = false ∧
      (q.present l.workspace = .error f ∨ q.present l.workspace = .ok true ∧
        ∃ doc, l.Document q doc ∧ (l.readOpening ⟨depth, q, [], doc, { s with
          loading := q :: s.loading
          entries := .began q :: .remark (.loading q.description) :: s.entries }⟩).1 = .error f) := by
  rw [loadResource_apply] at h
  split at h
  · cases h
    exact .inl rfl
  next hl =>
  rw [Bool.not_eq_true] at hl
  split at h
  · next g hp =>
    cases h
    exact .inr ⟨hl, .inl hp⟩
  · cases h
    exact .inl rfl
  · next hp =>
    change (l.readResource (l.importer depth) q { s with
      loading := q :: s.loading
      entries := .began q :: .remark (.loading q.description) :: s.entries }).1 = _ at h
    unfold readResource at h
    cases hq : q.read l.workspace with
    | error g =>
      have hs := read_error hp hq
      rw [hq] at h
      simp only [hs, if_true] at h
      cases h
      exact .inl rfl
    | ok data =>
      rw [hq] at h
      dsimp only at h
      cases hx : l.parse data with
      | error line =>
        rw [hx] at h
        cases h
        exact .inl rfl
      | ok doc =>
        rw [hx] at h
        dsimp only at h
        exact .inr ⟨hl, .inr ⟨hp, doc, ⟨data, hq, hx⟩, registerDocument_fails_iff.mp h⟩⟩

theorem Seeks.ne_unknown {r q : Resource} {e : Element} {kind : LocationKind} {qs : List Resource}
    (h : l.Seeks r e kind (.ok qs)) (hq : q ∈ qs) : q ≠ .unknown := by
  obtain ⟨-, location, -, -, hn⟩ := h
  rcases named_ok hn hq with hs | ⟨place, hp, -⟩
  · exact sibling_ne_unknown hs
  · rcases Location.resources_ok hp hq with ⟨-, name, path, rfl⟩ | ⟨path, rfl⟩
    all_goals exact fun h => by cases h

theorem loadNamed_fails (hd : v.element.isDefault = true) (hk : v.element.kind = .importing)
    (hb : Text.allBlank (v.element.attr "resource") = false) {location : String}
    (hl : l.environment.resolveRequired (v.element.attr "resource") = .ok location)
    (h : ((l.context (l.importer v.depth) v.resource).loadNamed location (.of location)
      v.session).1.1 = .error f) :
    f = .exhausted ∨ (LocationKind.of location = .relative ∧ f.kind.isSystem = true) ∨
      (∃ depth, v.depth = depth + 1 ∧
        v.resource.named l.workspace location (.of location) = .error f) ∨
      ∃ depth q u, l.ComesTo v depth (.of location) q u ∧
        (l.loadResource (l.importer depth) q u).1 = .error f := by
  rcases l.loadNamed_cases (l.importer v.depth) v.resource location (.of location) with
    ⟨place, hn, hload⟩ | ⟨q, hn, hload⟩ | ⟨g, hn, hg, hload⟩
  · rw [hload] at h
    cases hdepth : v.depth with
    | zero =>
      rw [hdepth] at h
      cases h
      exact .inl rfl
    | succ depth =>
      rw [hdepth] at h
      rcases loadLocation_fails_iff.mp h with hp | ⟨rs, hrs, ha⟩
      · exact .inr (.inr (.inl ⟨depth, rfl, hn.trans hp⟩))
      · obtain ⟨front, q, back, count, loaded, u, rfl, hf, hq⟩ := loadAll_fails ha
        have hseeks : l.Seeks v.resource v.element (.of location) (.ok (front ++ q :: back)) :=
          ⟨hb, location, hl, rfl, hn.trans hrs⟩
        exact .inr (.inr (.inr ⟨depth, q, u, .intro hd hk hseeks hdepth hf, hq⟩))
  · rw [hload] at h
    cases hdepth : v.depth with
    | zero =>
      rw [hdepth] at h
      cases h
      exact .inl rfl
    | succ depth =>
      rw [hdepth] at h
      have hseeks : l.Seeks v.resource v.element (.of location) (.ok ([] ++ q :: [])) :=
        ⟨hb, location, hl, rfl, hn⟩
      exact .inr (.inr (.inr ⟨depth, q, v.session, .intro hd hk hseeks hdepth rfl, h⟩))
  · rw [hload] at h
    cases h
    exact .inr (.inl hg)

theorem contains_of_store {kind : LocationKind} (h : f.kind.isStore = true) :
    kind.contains f = true := by
  rw [LocationKind.contains, h, Bool.true_or]

theorem contains_of_system (h : f.kind.isSystem = true) :
    LocationKind.relative.contains f = true := by
  rw [LocationKind.contains, h]
  exact Bool.or_true _

theorem loadNamed_escapes (hd : v.element.isDefault = true) (hk : v.element.kind = .importing)
    (hb : Text.allBlank (v.element.attr "resource") = false) {location : String}
    (hl : l.environment.resolveRequired (v.element.attr "resource") = .ok location)
    (h : ((l.context (l.importer v.depth) v.resource).loadNamed location (.of location)
      v.session).1.1 = .error f) (hc : (LocationKind.of location).contains f = false) :
    f.Leaves ∨ l.Unlocated v f ∨ ∃ o, l.Opens v o ∧ (l.readOpening o).1 = .error f := by
  have hstore : f.kind.isStore ≠ true := by
    intro hs
    rw [contains_of_store hs] at hc
    cases hc
  have hsystem : f.kind.isSystem = true → LocationKind.of location ≠ .relative := by
    intro hs hr
    rw [hr, contains_of_system hs] at hc
    cases hc
  rcases loadNamed_fails hd hk hb hl h with rfl | ⟨hr, hs⟩ | ⟨depth, hdepth, hn⟩ |
    ⟨depth, q, u, hcomes, hq⟩
  · exact .inl (.inr (.inr rfl))
  · exact absurd hr (hsystem hs)
  · have hseeks : l.Seeks v.resource v.element (.of location) (.error f) := ⟨hb, location, hl, rfl, hn⟩
    rcases named_error hn with ⟨hr, hs⟩ | ⟨place, hp⟩
    · exact absurd hr (hsystem hs)
    rcases Location.resources_error hp with rfl | ⟨err, -, rfl⟩ | rfl
    · exact absurd rfl hstore
    · exact .inr (.inl (.url hd hk hdepth hseeks))
    · exact .inr (.inl (.nul hd hk hdepth hseeks))
  · rcases loadResource_fails hq with hs | ⟨hnew, hp | ⟨hp, doc, hdoc, hf⟩⟩
    · exact absurd hs hstore
    · have hknown : q ≠ .unknown := by
        cases hcomes with
        | intro _ _ hn _ _ => exact hn.ne_unknown (List.mem_append_right _ List.mem_cons_self)
      rcases present_error hp with rfl | ⟨-, hu⟩
      · cases hkind : LocationKind.of location with
        | absolute =>
          rw [hkind] at hcomes
          exact .inr (.inl (.long hcomes hnew hp))
        | relative => exact absurd hkind (hsystem rfl)
      · exact absurd hu hknown
    · exact .inr (.inr ⟨_, .imported hcomes hnew hp hdoc, hf⟩)

theorem collecting_quiet (hr : l.reporter = .collecting) {importer : Importer} {r : Resource}
    {α : Type} {act : Reading α} (ha : Reading.Quiet (l.context importer r).reporter act) :
    Reading.Quiet .collecting act := by
  rwa [show (l.context importer r).reporter = .collecting from hr] at ha

section

variable (hh : l.documents.handlers = []) (hr : l.reporter = .collecting)
include hh hr

theorem custom_quiet {importer : Importer} {r : Resource} (defaults : Defaults) (e : Element) :
    Reading.Quiet .collecting
      (do let _ ← Scope.parseCustom ⟨l.context importer r, defaults⟩ l.documents.handlers e) := by
  rw [hh, Scope.parseCustom_nil]
  have herror : Reading.Quiet .collecting ((l.context importer r).error (.noHandler e.uri) e) :=
    collecting_quiet hr (Context.error_quiet _ _ _)
  exact .bind (.bind herror fun _ => .pure _) fun _ => .pure _

theorem readOpening_fails_at (h : (l.readOpening o).1 = .error f) :
    ∃ t front e rest u, l.Admits o t ∧ o.root.contents = front ++ .element e :: rest ∧
      l.documents.readContents
        ⟨l.context (l.importer o.depth) o.resource, o.outer.enter o.root⟩ front t = (.ok (), u) ∧
      (l.readVisit ⟨o.depth, o.resource, o.outer.enter o.root, e, rest, u⟩).1 = .error f := by
  have hfire : ∀ event, Reading.Quiet .collecting
      ((l.context (l.importer o.depth) o.resource).fire event) := fun event =>
    collecting_quiet hr (Context.fire_quiet event)
  have hprofiles : Reading.Quiet .collecting
      (l.documents.profilesAccepted (l.context (l.importer o.depth) o.resource) o.root) :=
    collecting_quiet hr (DocumentReader.profilesAccepted_quiet o.root)
  unfold readOpening at h
  rw [DocumentReader.readScope_eq] at h
  unfold DocumentReader.admits at h
  cases hd : o.root.isDefault with
  | false =>
    rw [hd] at h
    obtain ⟨accepted, u, hu, h⟩ := (Reading.Quiet.pure true).fails_after h
    cases hu
    obtain ⟨-, v, -, h⟩ := (hfire _).fails_after h
    obtain ⟨-, w, -, h⟩ := (Reading.Quiet.enter rfl).fails_after h
    have hinside := Reading.Quiet.fails_before (fun _ => .enter rfl) h
    unfold DocumentReader.readInside at hinside
    rw [hd] at hinside
    exact absurd hinside (custom_quiet hh hr _ _).not_fails
  | true =>
    rw [hd] at h
    obtain ⟨accepted, u, hu, h⟩ := hprofiles.fails_after h
    cases accepted with
    | false => cases h
    | true =>
      obtain ⟨_, v, hv, h⟩ := (hfire _).fails_after h
      obtain ⟨_, w, hw, h⟩ := (Reading.Quiet.enter rfl).fails_after h
      have hinside := Reading.Quiet.fails_before (fun _ => .enter rfl) h
      unfold DocumentReader.readInside at hinside
      rw [hd] at hinside
      -- The elements are read with no names taken, whatever the scope around them has taken.
      obtain ⟨front, e, rest, x, hc, hf, he⟩ :=
        DocumentReader.readContents_fails (s := { w with usedNames := [] }) hinside
      refine ⟨_, front, e, rest, x, ⟨hd, u, w, hu, ?_, rfl⟩, hc, hf, he⟩
      exact (Reading.bind_ok _ hv).trans hw

omit hh in
theorem importVisit_fails (hd : v.element.isDefault = true) (hk : v.element.kind = .importing)
    (h : ((l.context (l.importer v.depth) v.resource).importElement v.element v.session).1 =
      .error f) :
    f.Leaves ∨ l.Unlocated v f ∨ ∃ o, l.Opens v o ∧ (l.readOpening o).1 = .error f := by
  rcases (l.context (l.importer v.depth) v.resource).importElement_cases v.element v.session with
    ⟨-, himport⟩ | ⟨hb, ⟨err, -, himport⟩ | ⟨location, o, loaded, t, hl, ho, himport⟩⟩
  · rw [himport] at h
    exact absurd h (collecting_quiet hr (Context.error_quiet _ _ _)).not_fails
  · rw [himport] at h
    cases h
    cases err with
    | tooDeep => exact .inl (.inr (.inr rfl))
    | _ => exact .inl (.inl rfl)
  · rw [himport] at h
    cases o with
    | ok count => exact absurd h (collecting_quiet hr (Context.endImport_ok _ _)).not_fails
    | error g =>
      by_cases hc : (LocationKind.of location).contains g = true
      · exact absurd h (collecting_quiet hr (Context.endImport_quiet hc)).not_fails
      · rw [Bool.not_eq_true] at hc
        rw [Context.endImport_escapes hc] at h
        cases h
        exact loadNamed_escapes hd hk hb hl (congrArg (fun p => p.1.1) ho) hc

theorem readVisit_fails (h : (l.readVisit v).1 = .error f) :
    f.Leaves ∨ l.Unlocated v f ∨ ∃ o, l.Opens v o ∧ (l.readOpening o).1 = .error f := by
  unfold readVisit DocumentReader.readElement at h
  cases hd : v.element.isDefault with
  | false =>
    rw [hd] at h
    exact absurd h (custom_quiet hh hr _ _).not_fails
  | true =>
    rw [hd] at h
    cases hk : v.element.kind with
    | importing =>
      rw [hk] at h
      exact importVisit_fails hr hd hk h
    | aliasing =>
      rw [hk] at h
      exact absurd h (collecting_quiet hr (Context.aliasElement_quiet v.element)).not_fails
    | bean =>
      rw [hk] at h
      have hbean := DocumentReader.beanElement_quiet hh
        ⟨l.context (l.importer v.depth) v.resource, v.defaults⟩ v.element
      exact absurd h (collecting_quiet hr hbean).not_fails
    | beans =>
      rw [hk] at h
      exact .inr (.inr ⟨_, .nested hd hk, h⟩)
    | other =>
      rw [hk] at h
      cases h

omit hh hr in
theorem Opens.descends {e : Element} {front rest : List (Content Element)} {o' : Opening}
    {u : Session} (hc : o.root.contents = front ++ .element e :: rest)
    (h : l.Opens ⟨o.depth, o.resource, o.outer.enter o.root, e, rest, u⟩ o') :
    o'.depth < o.depth ∨ o'.depth = o.depth ∧ sizeOf o'.root < sizeOf o.root := by
  cases h with
  | imported h =>
    cases h with
    | intro _ _ _ hdepth _ =>
      rw [show o.depth = _ from hdepth]
      exact .inl (Nat.lt_succ_self _)
  | nested =>
    refine .inr ⟨rfl, ?_⟩
    rcases hroot : o.root with ⟨tag, uri, attrs, contents, line⟩
    have hmem : .element e ∈ contents := by
      have hcontents : contents = front ++ .element e :: rest := by
        rw [← hc, hroot]
      rw [hcontents]
      simp
    have hsize := List.sizeOf_lt_of_mem hmem
    simp only [Element.mk.sizeOf_spec, Content.element.sizeOf_spec] at hsize ⊢
    omega

theorem readOpening_fails (o : Opening) (h : (l.readOpening o).1 = .error f) :
    f.Leaves ∨ ∃ v, l.Meets o v ∧ l.Unlocated v f := by
  obtain ⟨t, front, e, rest, u, ha, hc, hf, hv⟩ := readOpening_fails_at hh hr h
  have hmeets := Meets.element ha hc hf
  rcases readVisit_fails hh hr hv with hl | hu | ⟨o', ho, hfails⟩
  · exact .inl hl
  · exact .inr ⟨_, hmeets, hu⟩
  · -- A document is read with less depth, and a scope inside this one is smaller.
    have hless := Opens.descends hc ho
    rcases readOpening_fails o' hfails with hl | ⟨w, hw, hu⟩
    · exact .inl hl
    · exact .inr ⟨w, .inside hmeets ho hw, hu⟩
termination_by (o.depth, sizeOf o.root)
decreasing_by
  rcases hless with hd | ⟨hd, hs⟩
  · exact Prod.Lex.left _ _ hd
  · rw [hd]
    exact Prod.Lex.right _ hs

end

theorem loadNamed_unnamed {depth : Nat} {location : String} {kind : LocationKind}
    (hdepth : v.depth = depth + 1)
    (hn : v.resource.named l.workspace location kind = .error f) :
    ((l.context (l.importer v.depth) v.resource).loadNamed location kind v.session).1.1 =
      .error f := by
  rcases l.loadNamed_cases (l.importer v.depth) v.resource location kind with
    ⟨place, hp, hload⟩ | ⟨q, hp, -⟩ | ⟨g, hp, -, hload⟩
  · rw [hload, hdepth]
    exact loadLocation_fails_iff.mpr (.inl (hp.symm.trans hn))
  · cases hp.symm.trans hn
  · rw [hload]
    exact congrArg Except.error (Except.error.inj (hp.symm.trans hn))

theorem loadNamed_fails_at {depth : Nat} {location : String} {kind : LocationKind} {q : Resource}
    {front back loaded : List Resource} {count : Nat} {u : Session} (hdepth : v.depth = depth + 1)
    (hn : v.resource.named l.workspace location kind = .ok (front ++ q :: back))
    (hf : l.loadAll (l.importer depth) 0 [] front v.session = ((.ok count, loaded), u))
    (hq : (l.loadResource (l.importer depth) q u).1 = .error f) :
    ((l.context (l.importer v.depth) v.resource).loadNamed location kind v.session).1.1 =
      .error f := by
  rcases l.loadNamed_cases (l.importer v.depth) v.resource location kind with
    ⟨place, hp, hload⟩ | ⟨q', hp, hload⟩ | ⟨g, hp, -⟩
  · rw [hload, hdepth]
    exact loadLocation_fails_iff.mpr (.inr ⟨_, hp.symm.trans hn, loadAll_fails_at hf hq⟩)
  · have hone : [q'] = front ++ q :: back := Except.ok.inj (hp.symm.trans hn)
    obtain ⟨rfl, rfl, -⟩ : front = [] ∧ q' = q ∧ back = [] := by
      cases front with
      | nil => simpa using hone
      | cons r front => simp at hone
    cases hf
    rw [hload, hdepth]
    exact hq
  · cases hp.symm.trans hn

theorem readVisit_escapes {location : String} (hd : v.element.isDefault = true)
    (hk : v.element.kind = .importing) (hb : Text.allBlank (v.element.attr "resource") = false)
    (hl : l.environment.resolveRequired (v.element.attr "resource") = .ok location)
    (h : ((l.context (l.importer v.depth) v.resource).loadNamed location (.of location)
      v.session).1.1 = .error f) (hc : (LocationKind.of location).contains f = false) :
    (l.readVisit v).1 = .error f := by
  rcases ho : (l.context (l.importer v.depth) v.resource).loadNamed location (.of location)
    v.session with ⟨⟨o, loaded⟩, t⟩
  rw [ho] at h
  obtain rfl : o = .error f := h
  have himport := Context.importElement_apply (l.context (l.importer v.depth) v.resource) hb hl ho
  rw [Context.endImport_escapes hc] at himport
  unfold readVisit DocumentReader.readElement
  rw [hd, hk]
  exact congrArg Prod.fst himport

theorem Unlocated.fails (h : l.Unlocated v f) : (l.readVisit v).1 = .error f := by
  cases h with
  | url hd hk hdepth hn =>
    obtain ⟨hb, location, hl, rfl, hn⟩ := hn
    refine readVisit_escapes hd hk hb hl (loadNamed_unnamed hdepth hn) ?_
    cases LocationKind.of location <;> rfl
  | nul hd hk hdepth hn =>
    obtain ⟨hb, location, hl, rfl, hn⟩ := hn
    refine readVisit_escapes hd hk hb hl (loadNamed_unnamed hdepth hn) ?_
    cases LocationKind.of location <;> rfl
  | @long depth q u h hnew hp =>
    cases h with
    | intro hd hk hn hdepth hf =>
      obtain ⟨hb, location, hl, hkind, hn⟩ := hn
      have hq : (l.loadResource (l.importer depth) q u).1 = .error (.file .nameTooLong) := by
        rw [loadResource_apply, hnew, hp]
        rfl
      refine readVisit_escapes hd hk hb hl ?_ ?_
      · rw [← hkind]
        exact loadNamed_fails_at hdepth hn hf hq
      · rw [← hkind]
        rfl

end Loader

end BeanCatalog
