import BeanCatalog.Proofs.Loading.Visits
import BeanCatalog.Xml.Document

namespace BeanCatalog

theorem Reading.Reports.withFreshNames {α : Type} {act : Reading α} {p : Problem} {s : Session}
    (h : Reports p act { s with usedNames := [] }) : Reports p (withFreshNames act) s := by
  obtain ⟨a, t, ht, hp⟩ := h
  exact ⟨a, _, withFreshNames_apply ht, hp⟩

theorem endImport_reports {ctx : Context} (hr : ctx.reporter = .collecting) (e : Element)
    {location : String} (loaded : List Resource) (s : Session) {f : Failure}
    (hc : (LocationKind.of location).contains f = true) :
    Reading.Reports (ctx.problem ((LocationKind.of location).fault location f) e (some f))
      (ctx.endImport e location (.error f, loaded)) s := by
  rw [Context.endImport_contained hc]
  refine (error_reports hr _ e _).followed fun _ => ?_
  rw [← hr]
  exact Context.fire_quiet _

namespace Loader

variable (l : Loader)

inductive OpeningFaulty (o : Opening) : Problem → Prop
  | noHandler (hd : o.root.isDefault = false) :
      OpeningFaulty o
        ((l.context (l.importer o.depth) o.resource).problem (.noHandler o.root.uri) o.root)
  | profiles {p : Problem} (hd : o.root.isDefault = true)
      (h : ProfilesFaulty l.documents (l.context (l.importer o.depth) o.resource) o.root p) :
      OpeningFaulty o p

inductive VisitFaulty (v : Visit) : Problem → Prop
  | element {p : Problem}
      (h : Faulty l.documents ⟨l.context (l.importer v.depth) v.resource, v.defaults⟩ v.element
        v.session p) : VisitFaulty v p
  | unloaded {location : String} {f : Failure} (hd : v.element.isDefault = true)
      (hk : v.element.kind = .importing) (hb : Text.allBlank (v.element.attr "resource") = false)
      (hl : l.environment.resolveRequired (v.element.attr "resource") = .ok location)
      (h : ((l.context (l.importer v.depth) v.resource).loadNamed location (.of location)
        v.session).1.1 = .error f) (hf : ¬ f.Leaves) :
      VisitFaulty v ((l.context (l.importer v.depth) v.resource).problem
        ((LocationKind.of location).fault location f) v.element (some f))

/-- In the walk that reads the document `root` at `r`, and all that it imports, problems stay with
the elements that have them. -/
structure Contained (depth : Nat) (r : Resource) (root : Element) (s : Session) : Prop where
  leaves {f : Failure} : (l.registerDocument (l.importer depth) root r s).1 = .error f → f.Leaves
  ends {v : Visit} {f : Failure} : l.Meets ⟨depth, r, [], root, s⟩ v →
    (l.readVisit v).1 = .error f → f.Leaves
  reported {v : Visit} {p : Problem} : l.Meets ⟨depth, r, [], root, s⟩ v → l.VisitFaulty v p →
    ∃ t, l.readVisit v = (.ok (), t) ∧ .problem .error p ∈ t.entries
  scopes {o : Opening} {p : Problem} :
    o = ⟨depth, r, [], root, s⟩ ∨ (∃ v, l.Meets ⟨depth, r, [], root, s⟩ v ∧ l.Opens v o) →
    l.OpeningFaulty o p → ∃ t, l.readOpening o = (.ok (), t) ∧ .problem .error p ∈ t.entries
  goesOn {v : Visit} {texts rest : List (Content Element)} {e : Element} {t : Session} :
    l.Meets ⟨depth, r, [], root, s⟩ v → l.readVisit v = (.ok (), t) →
    v.rest = texts ++ .element e :: rest → texts.filterMap Content.element? = [] →
    l.Meets ⟨depth, r, [], root, s⟩ ⟨v.depth, v.resource, v.defaults, e, rest, t⟩

variable {l} {o : Opening} {v : Visit} {e : Element} {f : Failure} {p : Problem} {s t : Session}

theorem readContents_texts {scope : Scope} {texts : List (Content Element)}
    (h : texts.filterMap Content.element? = []) :
    l.documents.readContents scope texts s = (.ok (), s) := by
  induction texts with
  | nil =>
    rw [DocumentReader.readContents]
    rfl
  | cons c texts ih =>
    cases c with
    | text x =>
      rw [DocumentReader.readContents]
      exact ih h
    | element e => cases h

theorem Meets.next {texts rest : List (Content Element)} (h : l.Meets o v)
    (hv : l.readVisit v = (.ok (), t)) (hrest : v.rest = texts ++ .element e :: rest)
    (ht : texts.filterMap Content.element? = []) :
    l.Meets o ⟨v.depth, v.resource, v.defaults, e, rest, t⟩ := by
  induction h with
  | @element o t' u front rest' e' ha hc hf =>
    obtain rfl : rest' = texts ++ .element e :: rest := hrest
    have hcontents : o.root.contents = (front ++ .element e' :: texts) ++ .element e :: rest := by
      rw [hc]
      simp
    refine .element ha hcontents ?_
    rw [DocumentReader.readContents_append _ hf, DocumentReader.readContents_element,
      Reading.bind_ok _ hv]
    exact readContents_texts ht
  | inside hm ho _ _ ih => exact .inside hm ho (ih hv hrest)

section

variable (hh : l.documents.handlers = []) (hr : l.reporter = .collecting)
include hh hr

theorem OpeningFaulty.reported (h : l.OpeningFaulty o p) :
    ∃ t, l.readOpening o = (.ok (), t) ∧ .problem .error p ∈ t.entries := by
  have hctx : (l.context (l.importer o.depth) o.resource).reporter = .collecting := hr
  suffices Reading.Reports p (l.documents.readScope (l.context (l.importer o.depth) o.resource)
      o.outer o.root) o.session by
    obtain ⟨_, t, ht, hp⟩ := this
    exact ⟨t, ht, hp⟩
  rw [DocumentReader.readScope_eq]
  unfold DocumentReader.admits DocumentReader.readInside
  cases h with
  | noHandler hd =>
    rw [hd, hh]
    have haccepted : (pure true : Reading Bool) o.session = (.ok true, o.session) := rfl
    refine .after haccepted ?_
    refine .following (collecting_quiet hr (Context.fire_quiet _)) fun _ t => ?_
    refine .following (.enter rfl) fun _ u => ?_
    refine .followed (.withFreshNames ?_) fun _ => .enter rfl
    change Reading.Reports _ (do
      let _ ← Scope.parseCustom ⟨l.context (l.importer o.depth) o.resource, o.outer.enter o.root⟩ []
        o.root) _
    rw [Scope.parseCustom_nil]
    exact ((error_reports hctx _ _ none).followed fun _ => .pure _).followed fun _ => .pure _
  | profiles hd h =>
    rw [hd]
    obtain ⟨t, ht, hp⟩ := h.reported (s := o.session) hctx
    exact .after ht ⟨(), t, rfl, hp⟩

theorem VisitFaulty.reported (hends : ∀ f, (l.readVisit v).1 = .error f → f.Leaves)
    (h : l.VisitFaulty v p) :
    ∃ t, l.readVisit v = (.ok (), t) ∧ .problem .error p ∈ t.entries := by
  cases h with
  | element h =>
    obtain ⟨_, t, ht, hp⟩ := h.reported hh hr
    exact ⟨t, ht, hp⟩
  | @unloaded location f hd hk hb hl h hf =>
    by_cases hc : (LocationKind.of location).contains f = true
    · rcases ho : (l.context (l.importer v.depth) v.resource).loadNamed location (.of location)
        v.session with ⟨⟨o, loaded⟩, u⟩
      rw [ho] at h
      obtain rfl : o = .error f := h
      have himport := Context.importElement_apply (l.context (l.importer v.depth) v.resource) hb hl ho
      obtain ⟨_, t, ht, hp⟩ := endImport_reports
        (show (l.context (l.importer v.depth) v.resource).reporter = .collecting from hr)
        v.element loaded u hc
      refine ⟨t, ?_, hp⟩
      unfold readVisit DocumentReader.readElement
      rw [hd, hk]
      exact himport.trans ht
    · rw [Bool.not_eq_true] at hc
      exact absurd (hends f (readVisit_escapes hd hk hb hl h hc)) hf

theorem walk_contained_iff (depth : Nat) (r : Resource) (root : Element) (s : Session) :
    l.Contained depth r root s ↔
      ∀ v f, l.Meets ⟨depth, r, [], root, s⟩ v → ¬ l.Unlocated v f := by
  constructor
  · intro hc v f hm hu
    have hleaves := hc.ends hm hu.fails
    cases hu <;> rcases hleaves with h | h | h <;> cases h
  · intro hlocated
    -- What opens further inside is met by the walk as a whole, so no failure can come from there.
    have hopens : ∀ o f, (∀ v, l.Meets o v → l.Meets ⟨depth, r, [], root, s⟩ v) →
        (l.readOpening o).1 = .error f → f.Leaves := by
      intro o f ho hf
      rcases readOpening_fails hh hr o hf with hl | ⟨w, hw, hu⟩
      · exact hl
      · exact absurd hu (hlocated w f (ho w hw))
    have hends : ∀ v f, l.Meets ⟨depth, r, [], root, s⟩ v → (l.readVisit v).1 = .error f →
        f.Leaves := by
      intro v f hm hf
      rcases readVisit_fails hh hr hf with hl | hu | ⟨o, ho, hf⟩
      · exact hl
      · exact absurd hu (hlocated v f hm)
      · exact hopens o f (fun w hw => .inside hm ho hw) hf
    exact
      { leaves := fun h => hopens _ _ (fun v hv => hv) (registerDocument_fails_iff.mp h)
        ends := hends _ _
        reported := fun hm hp => hp.reported hh hr (hends _ · hm)
        scopes := fun _ hp => hp.reported hh hr
        goesOn := fun hm hv hrest ht => hm.next hv hrest ht }

end

end Loader

def bracketImport : Element := ⟨"import", none, [("resource", "file://[")], [], some 1⟩

def bracketBean : Element := ⟨"bean", none, [("id", "a"), ("class", "A")], [], some 1⟩

def bracketRoot : Element :=
  ⟨"beans", none, [], [.element bracketImport, .element bracketBean], some 1⟩

def bracketLoader : Loader where
  workspace :=
    { tree := ⟨[], []⟩
      current := ["tmp", "vfs"]
      packageRoot := ["tmp", "packages"]
      packages := [] }
  parse := Xml.parse
  environment := .ofProperties []
  reporter := .collecting
  listening := false
  documents := {}

theorem bracketImport_resolves : Text.allBlank (bracketImport.attr "resource") = false ∧
    bracketLoader.environment.resolveRequired (bracketImport.attr "resource") = .ok "file://[" ∧
    LocationKind.of "file://[" = .absolute := by
  have hpieces : Piece.ofChars (bracketImport.attr "resource").toList =
      [.literal "file://[".toList] := by
    decide +kernel
  have hfree : PlaceholderFree (bracketImport.attr "resource") := by
    intro body hb
    rw [hpieces] at hb
    cases List.mem_singleton.mp hb
  exact ⟨by decide +kernel, Loader.resolveRequired_free _ hfree, by decide +kernel⟩

theorem resources_bracket :
    Location.resources bracketLoader.workspace "file://[" = .error (.url .brackets) := by
  have hfile : "file://[".startsWith Location.filePrefix = true := by decide +kernel
  have hpattern : ("file://[".startsWith packagePrefix || !Text.hasWildcard "file://[") = false := by
    decide +kernel
  have hsplit : Url.split "file://[" = .error .brackets := rfl
  unfold Location.resources Location.toPath
  rw [hfile, hpattern, hsplit]
  rfl

theorem importElement_bracket (r : Resource) (s : Session) :
    (bracketLoader.context (bracketLoader.importer 1) r).importElement bracketImport s =
      (.error (.url .brackets), s) := by
  obtain ⟨hb, hl, hk⟩ := bracketImport_resolves
  have hload : (bracketLoader.context (bracketLoader.importer 1) r).loadNamed "file://["
      (.of "file://[") s = ((.error (.url .brackets), []), s) := by
    rw [hk]
    change bracketLoader.loadLocation _ "file://[" [] s = _
    unfold Loader.loadLocation
    rw [resources_bracket]
    rfl
  rw [Context.importElement_apply (bracketLoader.context _ r) hb hl hload, Context.endImport_escapes]
  · rfl
  · rw [hk]
    rfl

theorem bracket_leaves_walk : ∃ t,
    bracketLoader.registerDocument (bracketLoader.importer 1) bracketRoot (.bytes [] none) {} =
      (.error (.url .brackets), t) ∧
    ¬ (Failure.url .brackets).Leaves ∧ t.registry.contains "a" = false ∧
    ∀ severity p, .problem severity p ∉ t.entries := by
  let r : Resource := .bytes [] none
  let opened : Session := { entries := [.opened bracketRoot] }
  have hread : bracketLoader.documents.readScope
      (bracketLoader.context (bracketLoader.importer 1) r) [] bracketRoot {} =
        (.error (.url .brackets), opened) := by
    let ctx := bracketLoader.context (bracketLoader.importer 1) r
    have hadmits : bracketLoader.documents.admits ctx bracketRoot {} = (.ok true, {}) := rfl
    have hinside : bracketLoader.documents.readInside ⟨ctx, Defaults.enter [] bracketRoot⟩ bracketRoot
        opened = (.error (.url .brackets), opened) := by
      change bracketLoader.documents.readContents _
        (.element bracketImport :: [.element bracketBean]) opened = _
      rw [DocumentReader.readContents_element]
      exact Reading.bind_error _ (importElement_bracket r opened)
    have hfresh := Reading.withFreshNames_apply (s := opened) hinside
    have hfire : ctx.fire (.defaults (Defaults.enter [] bracketRoot).resolve (ctx.source bracketRoot))
        {} = (.ok (), {}) := rfl
    have hopen : Reading.enter (.opened bracketRoot) {} = (.ok (), opened) := rfl
    rw [DocumentReader.readScope_eq, Reading.bind_ok _ hadmits]
    refine (Reading.bind_ok _ hfire).trans ?_
    refine (Reading.bind_ok _ hopen).trans ?_
    exact Reading.bind_error _ hfresh
  refine ⟨opened, ?_, ?_, rfl, ?_⟩
  · unfold Loader.registerDocument DocumentReader.read
    rw [Reading.bind_ok _ (show (get : Reading Session) {} = (.ok {}, {}) from rfl)]
    exact Reading.bind_error _ hread
  · rintro (h | h | h) <;> cases h
  · intro severity p hp
    cases List.mem_singleton.mp hp

theorem bracketLoader_not_contained :
    bracketLoader.documents.handlers = [] ∧ bracketLoader.reporter = .collecting ∧
      ¬ bracketLoader.Contained 1 (.bytes [] none) bracketRoot {} := by
  refine ⟨rfl, rfl, fun hcontained => ?_⟩
  let o : Opening := ⟨1, .bytes [] none, [], bracketRoot, {}⟩
  have hadmits : bracketLoader.Admits o { entries := [.opened bracketRoot] } :=
    ⟨rfl, {}, { entries := [.opened bracketRoot] }, rfl, rfl, rfl⟩
  let v : Visit :=
    ⟨1, .bytes [] none, Defaults.enter [] bracketRoot, bracketImport, [.element bracketBean],
      { entries := [.opened bracketRoot] }⟩
  have hmeets : bracketLoader.Meets o v := by
    have hcontents : o.root.contents =
        [] ++ .element bracketImport :: [.element bracketBean] := rfl
    refine .element hadmits hcontents ?_
    rw [DocumentReader.readContents]
    rfl
  obtain ⟨hb, hl, hk⟩ := bracketImport_resolves
  have hseeks : bracketLoader.Seeks v.resource v.element .absolute (.error (.url .brackets)) :=
    ⟨hb, _, hl, hk.symm, resources_bracket⟩
  have hlocated := (Loader.walk_contained_iff rfl rfl 1 _ _ _).mp hcontained v (.url .brackets) hmeets
  exact hlocated (.url rfl rfl rfl hseeks)

end BeanCatalog
