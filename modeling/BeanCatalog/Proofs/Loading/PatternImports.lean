import BeanCatalog.Proofs.Loading.Ending
import BeanCatalog.Proofs.Loading.ImportEvents
import BeanCatalog.Proofs.Resource.PatternsBeside
import BeanCatalog.Xml.Document

namespace BeanCatalog

def FilesAt (rs : List Resource) (places : List String → Prop) : Prop :=
  (∀ r ∈ rs, ∃ path, r = .file path ∧ places path.names) ∧
    ∀ place, places place → ∃ path, .file path ∈ rs ∧ path.names = place

theorem filesAt_of_mem_iff {rs : List Resource} {doubleRoot : Bool} {places : List String → Prop}
    (h : ∀ r, r ∈ rs ↔ ∃ place, places place ∧ r = .file ⟨doubleRoot, place⟩) :
    FilesAt rs places := by
  refine ⟨fun r hr => ?_, fun place hp => ⟨_, (h _).mpr ⟨place, hp, rfl⟩, rfl⟩⟩
  obtain ⟨place, hp, rfl⟩ := (h r).mp hr
  exact ⟨_, rfl, hp⟩

theorem mem_firsts {rs : List Resource} (h : ∀ r ∈ rs, ∃ path, r = .file path) {r : Resource} :
    r ∈ firsts rs ↔ r ∈ rs := by
  induction rs with
  | nil => rfl
  | cons q rs ih =>
    have hrest := ih fun p hp => h p (List.mem_cons_of_mem q hp)
    obtain ⟨path, rfl⟩ := h q List.mem_cons_self
    rw [firsts, List.mem_cons, List.mem_filter, hrest, List.mem_cons]
    constructor
    · exact Or.imp_right And.left
    · rintro (rfl | hm)
      · exact .inl rfl
      · obtain ⟨other, rfl⟩ := h r (List.mem_cons_of_mem _ hm)
        by_cases he : path = other
        · exact .inl (congrArg Resource.file he.symm)
        · exact .inr ⟨hm, by simpa [Resource.same] using he⟩

theorem completed_eq {loads : List (Resource × Except Failure Nat)} (h : loadFailure? loads = none) :
    completed loads = loads.map (·.1) := by
  induction loads with
  | nil => rfl
  | cons load loads ih =>
    obtain ⟨r, o⟩ := load
    cases o with
    | error f => cases h
    | ok n => exact congrArg (r :: ·) (ih h)

/-- What an import tells that fails before it can load anything. A reporter that collects goes on to an
event that lists nothing, and one that fails fast raises what it is told. -/
structure Context.Unsettled (ctx : Context) (e : Element) (location : String) (f : Failure)
    (own : List JournalEntry) (outcome : Except Failure Unit) : Prop where
  problem : problemsIn own = [(.error, ctx.problem .unresolvedBase e (some f))]
  collected : ctx.reporter = .collecting →
    outcome = .ok () ∧ eventsOf own = [.imported location [] (ctx.source e)]
  raised : ctx.reporter = .failFast →
    outcome = .error (.reported (ctx.problem .unresolvedBase e (some f))) ∧ eventsOf own = []

theorem Context.error_raises {ctx : Context} {fault : Fault} {e : Element} {cause : Option Failure}
    {s : Session} (h : ctx.reporter = .failFast) :
    ctx.error fault e cause s = (.error (.reported (ctx.problem fault e cause)),
      { s with entries := .problem .error (ctx.problem fault e cause) :: s.entries }) := by
  unfold error report
  rw [h]
  rfl

namespace PatternBeside

variable {location : String}

theorem kind (h : PatternBeside location) : LocationKind.of location = .relative := by
  rw [LocationKind.of, h.not_absolute]
  rfl

theorem not_blank (h : PatternBeside location) {env : Environment} {written : String}
    (hl : env.resolveRequired written = .ok location) : Text.allBlank written = false := by
  rw [← Bool.not_eq_true]
  intro hblank
  have hall : ∀ c ∈ written.toList, Text.isBlank c = true := List.all_eq_true.mp hblank
  have hfree : PlaceholderFree written :=
    placeholderFree_of_noDollar fun hm => absurd (hall '$' hm) (by decide)
  obtain rfl := Except.ok.inj ((Loader.resolveRequired_free env hfree).symm.trans hl)
  exact absurd (hall '*' h.star) (by decide)

end PatternBeside

namespace Loader

variable {l : Loader} {depth : Nat} {r q : Resource} {path : AbsolutePath} {e : Element}
  {location : String} {kind : LocationKind} {s t : Session} {rs loaded : List Resource} {n : Nat}
  {f : Failure}

theorem named_present {w : Workspace} (hs : r.sibling location = .ok q) (hq : q.present w = .ok true) :
    r.named w location .relative = .ok [q] := by
  simp only [Resource.named, hs, bind, Except.bind, hq]
  rfl

theorem named_absent {w : Workspace} {url : String} (hs : r.sibling location = .ok q)
    (hq : q.present w = .ok false) (hu : r.url = .ok url) :
    r.named w location .relative = Location.resources w (applyRelativePath url location) := by
  simp only [Resource.named, hs, bind, Except.bind, hq, hu]
  rfl

theorem named_folder {w : Workspace} (hw : w.tree.WellFormed)
    (hdoc : w.tree.isFile path.names = true) (hp : PatternBeside location)
    (hq : (Resource.file (path.sibling location)).present w = .ok false) :
    ∃ rs, (Resource.file path).named w location .relative = .ok rs ∧
      ((∀ name ∈ path.names.dropLast, Text.hasWildcard name = false) →
        FilesAt (firsts rs) (w.Beside path.names.dropLast location)) := by
  -- the location is put into the URL of the document, which is globbed
  obtain ⟨rs, hrs, doubleRoot, hmem⟩ := Location.resources_patternUrl hw hdoc hp
  refine ⟨rs, (named_absent rfl hq rfl).trans hrs, fun hplain => ?_⟩
  have hfolder := FileTree.isFolder_parent hdoc
  have hfiles (p : Resource) (hm : p ∈ rs) : ∃ path, p = .file path := by
    obtain ⟨place, -, rfl⟩ := (hmem p).mp hm
    exact ⟨_, rfl⟩
  refine @filesAt_of_mem_iff _ doubleRoot _ fun p => ?_
  simp only [mem_firsts hfiles, hmem, w.throughFolder_iff hw hfolder hplain hp.wild]

theorem loaded_named
    (h : (l.context (l.importer depth) r).loadNamed location kind s = ((.ok n, loaded), t))
    (hn : r.named l.workspace location kind = .ok rs) : loaded = firsts rs := by
  obtain ⟨loads, u, remarks, -, -, rfl, hwhole⟩ := loadNamed_loads h
  have hall := hwhole.resolve_left nofun
  rw [hn] at hall
  cases hall with
  | ok hf hm => rw [completed_eq hf, hm]

theorem loadNamed_unsettled (importer : Importer) (hs : r.sibling location = .ok q)
    (hq : q.present l.workspace = .error f) :
    (l.context importer r).loadNamed location .relative s = ((.error f, []), s) := by
  simp only [Context.loadNamed, Context.loadBeside, context, hs, bind, Except.bind, hq]
  rfl

section

variable (hr : l.reporter ≠ .unable) (hlisten : l.listening = true)
  (hb : Text.allBlank (e.attr "resource") = false)
  (hl : l.environment.resolveRequired (e.attr "resource") = .ok location)

include hr hlisten hb hl

theorem event_lists_named (hn : r.named l.workspace location (.of location) = .ok rs)
    (hload :
      ((l.context (l.importer depth) r).loadNamed location (.of location) s).1.1.toBool = true) :
    let ctx := l.context (l.importer depth) r
    ∃ own, (ctx.loadNamed location (.of location) s).2.Entered own (ctx.importElement e s).2 ∧
      eventsOf own = [.imported location (firsts rs) (ctx.source e)] := by
  intro ctx
  change (ctx.loadNamed location (.of location) s).1.1.toBool = true at hload
  rcases ho : ctx.loadNamed location (.of location) s with ⟨⟨o, loaded⟩, t⟩
  rw [ho] at hload
  cases o with
  | error f => cases hload
  | ok n =>
    have hends := @Context.endImport_ok_tells ctx e location t hr n loaded
    obtain ⟨own, u, hu, hown, htells⟩ := hends
    rw [Context.importElement_apply ctx hb hl ho, hu, ← loaded_named ho hn]
    exact ⟨own, hown, htells.event.trans (if_pos hlisten)⟩

theorem unsettled_told (importer : Importer) (hkind : LocationKind.of location = .relative)
    (hs : r.sibling location = .ok q) (hq : q.present l.workspace = .error f)
    (hf : f.kind.isSystem = true) :
    let ctx := l.context importer r
    ∃ own, s.Entered own (ctx.importElement e s).2 ∧
      ctx.Unsettled e location f own (ctx.importElement e s).1 := by
  intro ctx
  have hc : (LocationKind.of location).contains f = true := by
    rw [LocationKind.contains, hkind, hf]
    exact Bool.or_true _
  have hfault : (LocationKind.of location).fault location f = .unresolvedBase := by
    rw [hkind]
    exact if_pos ⟨rfl, hf⟩
  have ho : ctx.loadNamed location (.of location) s = ((.error f, []), s) := by
    rw [hkind]
    exact loadNamed_unsettled importer hs hq
  rw [Context.importElement_apply ctx hb hl ho]
  cases hreporter : l.reporter with
  | unable => exact absurd hreporter hr
  | collecting =>
    have hends := @Context.endImport_error_tells ctx e location s hreporter f hc []
    obtain ⟨own, u, hu, hown, htells⟩ := hends
    rw [hu]
    refine ⟨own, hown, ?_, fun _ => ⟨rfl, htells.event.trans (if_pos hlisten)⟩, fun hfast => ?_⟩
    · rw [htells.problem, Context.importProblem?, hfault]
      rfl
    · cases hreporter.symm.trans hfast
  | failFast =>
    have herror := @Context.error_raises ctx .unresolvedBase e (some f) s hreporter
    rw [Context.endImport_contained hc, hfault, Reading.bind_error _ herror]
    refine ⟨[.problem .error (ctx.problem .unresolvedBase e (some f))], rfl, rfl, fun hgoes => ?_,
      fun _ => ⟨rfl, rfl⟩⟩
    cases hreporter.symm.trans hgoes

end

/-- A regular file at the very place of a relative pattern is all that the import of the pattern lists.
Where none is, and no name of the folder of the document has a wildcard, it lists exactly the regular
files that the pattern matches from that folder. Where that cannot be found out, this is the problem
of the import. -/
theorem pattern_event (hr : l.reporter ≠ .unable) (hlisten : l.listening = true)
    (hw : l.workspace.tree.WellFormed) (hdoc : l.workspace.tree.isFile path.names = true)
    (hl : l.environment.resolveRequired (e.attr "resource") = .ok location)
    (hp : PatternBeside location)
    (hload : ∀ rs, (Resource.file path).named l.workspace location .relative = .ok rs →
      ((l.context (l.importer depth) (.file path)).loadNamed location .relative s).1.1.toBool = true) :
    let ctx := l.context (l.importer depth) (.file path)
    ∃ own, (ctx.loadNamed location .relative s).2.Entered own (ctx.importElement e s).2 ∧
      match (Resource.file (path.sibling location)).present l.workspace with
      | .ok true =>
        eventsOf own = [.imported location [.file (path.sibling location)] (ctx.source e)]
      | .ok false => (∀ name ∈ path.names.dropLast, Text.hasWildcard name = false) →
        ∃ listed, eventsOf own = [.imported location listed (ctx.source e)] ∧
          FilesAt listed (l.workspace.Beside path.names.dropLast location)
      | .error f =>
        f = .file .nameTooLong ∧ ctx.Unsettled e location f own (ctx.importElement e s).1 := by
  intro ctx
  have hb := hp.not_blank hl
  have hs : (Resource.file path).sibling location = .ok (.file (path.sibling location)) := rfl
  cases hq : (Resource.file (path.sibling location)).present l.workspace with
  | error f =>
    have hlong : f = .file .nameTooLong := (present_error hq).resolve_right fun hu => nomatch hu.2
    have hsystem : f.kind.isSystem = true := by rw [hlong]; rfl
    have hended : ctx.loadNamed location .relative s = ((.error f, []), s) :=
      loadNamed_unsettled (l.importer depth) hs hq
    rw [hended]
    obtain ⟨own, hown, htold⟩ :=
      unsettled_told hr hlisten hb hl (l.importer depth) hp.kind hs hq hsystem
    exact ⟨own, hown, hlong, htold⟩
  | ok there =>
    rw [← hp.kind] at hload ⊢
    cases there with
    | true =>
      have hn : (Resource.file path).named l.workspace location (.of location) =
          .ok [.file (path.sibling location)] := by
        rw [hp.kind, named_present hs hq]
      exact event_lists_named hr hlisten hb hl hn (hload _ hn)
    | false =>
      obtain ⟨rs, hn, hat⟩ := named_folder hw hdoc hp hq
      rw [← hp.kind] at hn
      obtain ⟨own, hown, hevent⟩ := event_lists_named hr hlisten hb hl hn (hload _ hn)
      exact ⟨own, hown, fun hplain => ⟨firsts rs, hevent, hat hplain⟩⟩

end Loader

def folderLoader (folder : String) (files : List String) : Loader where
  workspace :=
    { tree := ⟨("main.xml" :: files).map fun name =>
        (["tmp", "vfs", folder, name], Text.Utf8.encode "<beans/>"), []⟩
      current := ["tmp", "vfs"]
      packageRoot := ["tmp", "packages"]
      packages := [] }
  parse := Xml.parse
  environment := .ofProperties []
  reporter := .collecting
  listening := true
  documents := {}

def patternBesideImport : Element := ⟨"import", none, [("resource", "c*.xml")], [], some 1⟩

def folderDocument (folder : String) : AbsolutePath :=
  ⟨false, ["tmp", "vfs", folder, "main.xml"]⟩

def folderContext (folder : String) (files : List String) : Context :=
  (folderLoader folder files).context ((folderLoader folder files).importer 2)
    (.file (folderDocument folder))

def folderListed (folder : String) (files : List String) : List (Option (List Resource)) :=
  let run := (folderContext folder files).importElement patternBesideImport {}
  (eventsOf run.2.journal).map fun
    | .imported _ listed _ => some listed
    | _ => none

theorem matched_not_listed :
    (folderListed "d" ["c*.xml", "c1.xml"] =
        [none, some [.file ⟨false, ["tmp", "vfs", "d", "c*.xml"]⟩]] ∧
      (folderLoader "d" ["c*.xml", "c1.xml"]).workspace.Beside ["tmp", "vfs", "d"] "c*.xml"
        ["tmp", "vfs", "d", "c1.xml"]) ∧
      folderListed "a[b]" ["c1.xml"] = [some []] ∧
      (folderLoader "a[b]" ["c1.xml"]).workspace.Beside ["tmp", "vfs", "a[b]"] "c*.xml"
        ["tmp", "vfs", "a[b]", "c1.xml"] := by
  refine ⟨⟨?_, ⟨[["c1.xml"]], Glob.mem_routes_iff.mp ?_⟩, ?_⟩, ?_,
    ⟨[["c1.xml"]], Glob.mem_routes_iff.mp ?_⟩, ?_⟩ <;> decide +kernel

theorem patternBeside_star : PatternBeside "c*.xml" where
  plain := ⟨by decide, by decide, by decide, noBreak_of_any (by decide)⟩
  noColon := by decide
  noNul := by decide
  star := by decide

theorem oddFolder_lists_beside :
    let l := folderLoader "d%41#\n" ["c1.xml", "x.xml"]
    let path := folderDocument "d%41#\n"
    l.reporter ≠ .unable ∧ l.listening = true ∧ l.workspace.tree.WellFormed ∧
      l.workspace.tree.isFile path.names = true ∧
      l.environment.resolveRequired (patternBesideImport.attr "resource") = .ok "c*.xml" ∧
      PatternBeside "c*.xml" ∧
      ((l.context (l.importer 2) (.file path)).loadNamed "c*.xml" .relative {}).1.1.toBool = true ∧
      ∃ own listed,
        ((l.context (l.importer 2) (.file path)).loadNamed "c*.xml" .relative {}).2.Entered own
          ((l.context (l.importer 2) (.file path)).importElement patternBesideImport {}).2 ∧
        eventsOf own =
          [.imported "c*.xml" listed
            ((l.context (l.importer 2) (.file path)).source patternBesideImport)] ∧
        FilesAt listed (l.workspace.Beside path.names.dropLast "c*.xml") := by
  intro l path
  have hw : l.workspace.tree.WellFormed := ⟨by decide +kernel, by decide +kernel⟩
  have hdoc : l.workspace.tree.isFile path.names = true := by decide +kernel
  have hl : l.environment.resolveRequired (patternBesideImport.attr "resource") = .ok "c*.xml" :=
    Loader.resolveRequired_free _ (placeholderFree_of_noDollar (by decide))
  have hload : ((l.context (l.importer 2) (.file path)).loadNamed "c*.xml" .relative {}).1.1.toBool =
      true := by decide +kernel
  have hr : l.reporter ≠ .unable := nofun
  have hlisten : l.listening = true := rfl
  have hlists := @Loader.pattern_event l 2 path patternBesideImport "c*.xml" {} hr hlisten hw hdoc hl
    patternBeside_star fun _ _ => hload
  have hnone : l.workspace.tree.isFileAt [] (path.sibling "c*.xml").names = .ok false := by
    decide +kernel
  have habsent : (Resource.file (path.sibling "c*.xml")).present l.workspace = .ok false := by
    rw [Resource.present, hnone]
    rfl
  refine ⟨hr, rfl, hw, hdoc, hl, patternBeside_star, hload, ?_⟩
  obtain ⟨own, hown, hlisted⟩ := hlists
  rw [habsent] at hlisted
  obtain ⟨listed, hevent, hat⟩ := hlisted (by decide +kernel)
  exact ⟨own, listed, hown, hevent, hat⟩

end BeanCatalog
