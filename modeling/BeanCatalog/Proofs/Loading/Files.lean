import BeanCatalog.Proofs.Files.Paths
import BeanCatalog.Proofs.Loading.Ending
import Mathlib
import BeanCatalog.Xml.Document

/-!
Loading over files. However a location is spelt, the path that it leads to begins like the current
folder or at the root and climbs no more from there, so only finitely many paths lead to the files of
a tree.
-/

namespace BeanCatalog

def Workspace.filePlaces (w : Workspace) : List Resource :=
  [false, true].flatMap fun doubleRoot => w.current.inits.flatMap fun front =>
    w.tree.files.flatMap fun (place, _) => place.tails.map fun back =>
      .file ⟨doubleRoot, front ++ back⟩

theorem mem_filePlaces {w : Workspace} {path : AbsolutePath} (ha : Anchored w.current path.names)
    (hp : (Resource.file path).present w = .ok true) : .file path ∈ w.filePlaces := by
  obtain ⟨front, back, hf, hn, hb⟩ := ha
  obtain ⟨data, hd⟩ := file_of_present hp
  have hm := mem_files_of_file hd
  rw [hn, List.foldl_append, foldl_descend_append hb] at hm
  apply List.mem_flatMap.mpr
  refine ⟨path.doubleRoot, by cases path.doubleRoot <;> simp, ?_⟩
  apply List.mem_flatMap.mpr
  refine ⟨front, (List.mem_inits _ _).mpr hf, ?_⟩
  apply List.mem_flatMap.mpr
  refine ⟨_, hm, ?_⟩
  apply List.mem_map.mpr
  refine ⟨back, (List.mem_tails _ _).mpr (List.suffix_append _ _), ?_⟩
  rw [← hn]

def Resource.OnFiles (w : Workspace) (r : Resource) : Prop :=
  ∃ path, r = .file path ∧ Anchored w.current path.names

theorem onFiles_ofFile (w : Workspace) (path : String) : (Resource.ofFile w path).OnFiles w :=
  ⟨_, rfl, .ofString _ _⟩

theorem onFiles_of_resources {w : Workspace} {location : String} {rs : List Resource}
    {r : Resource} (hl : location.startsWith packagePrefix = false)
    (h : Location.resources w location = .ok rs) (hr : r ∈ rs) : r.OnFiles w := by
  rcases Location.resources_ok h hr with ⟨hp, -⟩ | ⟨path, rfl⟩
  · rw [hp] at hl
    cases hl
  · exact onFiles_ofFile w path

theorem onFiles_of_named {w : Workspace} {r q : Resource} {location : String}
    {kind : LocationKind} {qs : List Resource} (hr : r.OnFiles w)
    (hl : location.startsWith packagePrefix = false)
    (h : r.named w location kind = .ok qs) (hq : q ∈ qs) : q.OnFiles w := by
  obtain ⟨path, rfl, hp⟩ := hr
  rcases named_ok h hq with hs | ⟨place, hn, ⟨-, rfl⟩ | ⟨url, hu, rfl⟩⟩
  · obtain rfl := Except.ok.inj hs
    exact ⟨_, rfl, hp.dropLast.foldl_descend _⟩
  · exact onFiles_of_resources hl hn hq
  · obtain rfl := Except.ok.inj hu
    have hpath : ("file://" ++ Percent.encode path.render).toList =
        "file:".toList ++ '/' :: ('/' :: (Percent.encode path.render).toList) := by
      rw [String.toList_append]
      rfl
    obtain ⟨rest, hrest⟩ := applyRelativePath_append hpath location
    exact onFiles_of_resources (startsWith_head hrest rfl (by decide)) hn hq

namespace Loader

variable {l : Loader}

/-- Every document of a tree imports locations over files only, and spells them out. -/
def ImportsFiles (l : Loader) : Prop :=
  ∀ place data root e, (place, data) ∈ l.workspace.tree.files → l.parse data = .ok root →
    root.Imports e → PlaceholderFree (e.attr "resource") ∧
      (e.attr "resource").startsWith packagePrefix = false

theorem closed_onFiles (h : l.ImportsFiles) : l.Closed (Resource.OnFiles l.workspace) where
  free := by
    rintro r root e ⟨path, rfl, -⟩ ⟨data, hd, hx⟩ he
    exact (h _ data root e (mem_files_of_file hd) hx he).1
  named := by
    rintro r q root e kind qs hr ⟨data, hd, hx⟩ he ⟨-, location, hl, -, hn⟩ hq
    obtain ⟨path, rfl, -⟩ := id hr
    obtain ⟨hfree, hpackage⟩ := h _ data root e (mem_files_of_file hd) hx he
    rw [resolveRequired_free _ hfree] at hl
    obtain rfl := Except.ok.inj hl
    exact onFiles_of_named hr hpackage hn hq

/-- Loading a location over files, or a file, comes to an end, in whatever way the documents of the
tree import one another. -/
theorem file_loading_ends (hh : l.documents.handlers = []) (hd : l.ImportsFiles) (s : Session) :
    (∀ location loaded, location.startsWith packagePrefix = false →
      l.LocationEnds location loaded s) ∧
    ∀ path, l.ResourceEnds (.ofFile l.workspace path) s := by
  have hg := closed_onFiles hd
  have hp : ∀ q, q.OnFiles l.workspace → q.present l.workspace = .ok true →
      q ∈ l.workspace.filePlaces := by
    rintro q ⟨path, rfl, ha⟩ hq
    exact mem_filePlaces ha hq
  constructor
  · intro location loaded hl
    apply hg.locationEnds hh _ l.workspace.filePlaces
    · intro depth q hq hpresent _
      exact hp q hq hpresent
    · intro rs r hrs hr
      exact onFiles_of_resources hl hrs hr
  · intro path
    apply hg.resourceEnds hh (onFiles_ofFile _ _) l.workspace.filePlaces
    intro depth q hq hpresent _
    exact hp q hq hpresent

end Loader

def loopImport : Element := ⟨"import", none, [("resource", "../vfs/*.xml")], [], some 1⟩

def loopRoot : Element := ⟨"beans", none, [], [.element loopImport], some 1⟩

def loopData : List UInt8 :=
  Text.Utf8.encode "<beans><import resource=\"../vfs/*.xml\"/></beans>"

def loopLoader : Loader where
  workspace :=
    { tree := ⟨[(["tmp", "vfs", "a.xml"], loopData)], []⟩
      current := ["tmp", "vfs"]
      packageRoot := ["tmp", "packages"]
      packages := [] }
  parse := Xml.parse
  environment := .ofProperties []
  reporter := .collecting
  listening := true
  documents := {}

theorem parse_loopData : loopLoader.parse loopData = .ok loopRoot := by
  cbv

theorem imports_loopRoot {e : Element} (h : loopRoot.Imports e) : e = loopImport := by
  cases h with
  | child _ hm => simpa [loopRoot] using hm
  | nested _ hm _ hk =>
    obtain rfl : _ = loopImport := by simpa [loopRoot] using hm
    exact absurd hk (by decide)

theorem loopLoader_importsFiles : loopLoader.ImportsFiles := by
  intro place data root e hm hx he
  obtain ⟨rfl, rfl⟩ : place = ["tmp", "vfs", "a.xml"] ∧ data = loopData := by
    simpa [loopLoader] using hm
  rw [parse_loopData] at hx
  obtain rfl := Except.ok.inj hx
  rw [imports_loopRoot he]
  have hpieces : Piece.ofChars (loopImport.attr "resource").toList =
      [.literal "../vfs/*.xml".toList] := by cbv
  constructor
  · intro body hb
    rw [hpieces] at hb
    simp at hb
  · exact startsWith_head (c := '.') rfl rfl (by decide)

theorem loopLoader_loading_ends :
    loopLoader.documents.handlers = [] ∧ loopLoader.ImportsFiles ∧
      "a.xml".startsWith packagePrefix = false ∧ loopLoader.LocationEnds "a.xml" [] {} := by
  have hl : "a.xml".startsWith packagePrefix = false :=
    startsWith_head (c := 'a') rfl rfl (by decide)
  refine ⟨rfl, loopLoader_importsFiles, hl, ?_⟩
  exact (Loader.file_loading_ends rfl loopLoader_importsFiles {}).1 "a.xml" [] hl

end BeanCatalog
