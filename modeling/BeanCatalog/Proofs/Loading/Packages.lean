import BeanCatalog.Proofs.Files.Paths
import BeanCatalog.Proofs.Loading.Ending
import Mathlib
import BeanCatalog.Xml.Document

/-!
Loading over packages. The place of a resource in its package keeps the climbs that lead out of it,
and climbing at the root leads nowhere else, so one file can be reached at ever new places.
-/

namespace BeanCatalog

namespace Location

variable {w : Workspace} {location : String}

def packageName (location : String) : String :=
  String.ofList ((location.toList.drop packagePrefix.length).takeWhile (· != '/'))

theorem slash_not_mem_packageName : '/' ∉ (packageName location).toList := by
  rw [packageName, String.toList_ofList]
  intro hm
  have hc := List.all_eq_true.mp List.all_takeWhile '/' hm
  cases hc

theorem resources_package {rs : List Resource} {r : Resource}
    (hl : location.startsWith packagePrefix = true) (h : resources w location = .ok rs)
    (hr : r ∈ rs) : ∃ path, r = .ofPackage (packageName location) path := by
  unfold resources at h
  rw [hl, Bool.true_or, if_pos rfl] at h
  obtain ⟨q, hq, h⟩ := bind_eq_ok h
  cases h
  rw [List.mem_singleton.mp hr]
  unfold resource at hq
  rw [if_pos hl] at hq
  dsimp only at hq
  split at hq
  · cases hq
  · exact ⟨_, (Except.ok.inj hq).symm⟩

theorem packageName_of_append {name : String} {rest : List Char} (hn : '/' ∉ name.toList)
    (h : location.toList = packagePrefix.toList ++ name.toList ++ '/' :: rest) :
    packageName location = name := by
  have hd : location.toList.drop packagePrefix.length = name.toList ++ '/' :: rest := by
    rw [h, List.append_assoc]
    rfl
  have hall : ∀ c ∈ name.toList, (c != '/') = true := by
    intro c hc
    rw [bne_iff_ne]
    rintro rfl
    exact hn hc
  unfold packageName
  rw [hd, List.takeWhile_append_of_pos hall]
  simp

end Location

def Resource.climbs : Resource → Nat
  | .package _ path => BeanCatalog.climbs path
  | _ => 0

def Resource.InPackage (name : String) (r : Resource) : Prop :=
  ∃ path n, r = .package name path ∧ ClimbsFirst n path

theorem inPackage_ofPackage (name path : String) : (Resource.ofPackage name path).InPackage name :=
  have ⟨n, hn⟩ := relativeNames_climbsFirst path
  ⟨_, n, rfl, hn⟩

def Workspace.packagePlaces (w : Workspace) (name : String) (bound : Nat) : List Resource :=
  (List.range (bound + 1)).flatMap fun n => w.tree.files.flatMap fun (place, _) =>
    place.tails.map fun back => .package name (List.replicate n ".." ++ back)

theorem mem_packagePlaces {w : Workspace} {name : String} {r : Resource} {bound : Nat}
    (hr : r.InPackage name) (hp : r.present w = .ok true) (hb : r.climbs ≤ bound) :
    r ∈ w.packagePlaces name bound := by
  obtain ⟨path, n, rfl, hn⟩ := hr
  have hclimbs : n ≤ bound := hn.climbs ▸ hb
  obtain ⟨back, rfl, hback⟩ := hn
  obtain ⟨data, hd⟩ := package_of_present hp
  obtain ⟨folder, -, hm⟩ := mem_files_of_package hd
  rw [List.foldl_append, foldl_descend_append hback] at hm
  apply List.mem_flatMap.mpr
  refine ⟨n, List.mem_range.mpr (by omega), ?_⟩
  apply List.mem_flatMap.mpr
  refine ⟨_, hm, ?_⟩
  apply List.mem_map.mpr
  exact ⟨back, (List.mem_tails _ _).mpr (List.suffix_append _ _), rfl⟩

theorem climbs_bounded (rs : List Resource) : ∃ bound, ∀ r ∈ rs, r.climbs ≤ bound := by
  induction rs with
  | nil => exact ⟨0, by simp⟩
  | cons r rs ih =>
    obtain ⟨bound, hb⟩ := ih
    refine ⟨max r.climbs bound, fun q hq => ?_⟩
    rcases List.mem_cons.mp hq with rfl | hq
    · exact le_max_left _ _
    · exact (hb q hq).trans (le_max_right _ _)

theorem inPackage_of_named {w : Workspace} {name location : String} {r q : Resource}
    {qs : List Resource} (hname : '/' ∉ name.toList) (hr : r.InPackage name)
    (h : r.named w location .relative = .ok qs) (hq : q ∈ qs) : q.InPackage name := by
  obtain ⟨path, n, rfl, -⟩ := hr
  rcases named_ok h hq with hs | ⟨place, hn, ⟨hk, -⟩ | ⟨url, hu, rfl⟩⟩
  · obtain rfl := Except.ok.inj hs
    exact inPackage_ofPackage _ _
  · cases hk
  · obtain rfl := Except.ok.inj hu
    have hurl : (packagePrefix ++ name ++ "/" ++ renderRelative path).toList =
        (packagePrefix.toList ++ name.toList) ++ '/' :: (renderRelative path).toList := by
      simp
    obtain ⟨rest, hrest⟩ := applyRelativePath_append hurl location
    have hl : (applyRelativePath (packagePrefix ++ name ++ "/" ++ renderRelative path)
        location).startsWith packagePrefix = true := by
      rw [String.startsWith_string_iff, hrest, List.append_assoc]
      exact List.prefix_append _ _
    obtain ⟨tail, rfl⟩ := Location.resources_package hl hn hq
    rw [Location.packageName_of_append hname hrest]
    exact inPackage_ofPackage _ _

namespace Loader

variable {l : Loader}

/-- Every document of a tree imports relative locations only, and spells them out. -/
def ImportsRelative (l : Loader) : Prop :=
  ∀ place data root e, (place, data) ∈ l.workspace.tree.files → l.parse data = .ok root →
    root.Imports e → PlaceholderFree (e.attr "resource") ∧
      Location.isAbsolute (e.attr "resource") = false

theorem closed_inPackage (h : l.ImportsRelative) {name : String} (hname : '/' ∉ name.toList) :
    l.Closed (Resource.InPackage name) where
  free := by
    rintro r root e ⟨path, n, rfl, -⟩ ⟨data, hd, hx⟩ he
    obtain ⟨folder, -, hm⟩ := mem_files_of_package hd
    exact (h _ data root e hm hx he).1
  named := by
    rintro r q root e kind qs hr ⟨data, hd, hx⟩ he ⟨-, location, hl, hk, hn⟩ hq
    obtain ⟨path, n, rfl, -⟩ := id hr
    obtain ⟨folder, -, hm⟩ := mem_files_of_package hd
    obtain ⟨hfree, hrelative⟩ := h _ data root e hm hx he
    rw [resolveRequired_free _ hfree] at hl
    obtain rfl := Except.ok.inj hl
    rw [LocationKind.of, hrelative, if_neg Bool.false_ne_true] at hk
    subst hk
    exact inPackage_of_named hname hr hn hq

/-- Loading a location in a package comes to an end exactly when the climbs out of the package are
bounded, however deep imports are followed. -/
theorem package_loading_ends_iff (hh : l.documents.handlers = []) (hd : l.ImportsRelative)
    {location : String} (hl : location.startsWith packagePrefix = true) (loaded : List Resource)
    (s : Session) :
    l.LocationEnds location loaded s ↔ ∃ bound, ∀ depth,
      ∀ q ∈ ((l.importer depth).loadLocation location loaded s).2.begun, q.climbs ≤ bound := by
  constructor
  · rintro ⟨depth, -, hdeeper⟩
    obtain ⟨bound, hb⟩ := climbs_bounded ((List.range (depth + 1)).flatMap fun m =>
      ((l.importer m).loadLocation location loaded s).2.begun)
    refine ⟨bound, fun m q hq => hb q (List.mem_flatMap.mpr ?_)⟩
    by_cases hm : m ≤ depth
    · exact ⟨m, List.mem_range.mpr (by omega), hq⟩
    · refine ⟨depth, List.mem_range.mpr (by omega), ?_⟩
      have hmore := hdeeper (m - depth)
      rw [show depth + (m - depth) = m by omega] at hmore
      rwa [← hmore]
  · rintro ⟨bound, hb⟩
    have hname : '/' ∉ (Location.packageName location).toList := Location.slash_not_mem_packageName
    have hg := closed_inPackage hd hname
    apply hg.locationEnds hh _ (l.workspace.packagePlaces (Location.packageName location) bound)
    · intro depth q hq hpresent hbegun
      exact mem_packagePlaces hq hpresent (hb depth q hbegun)
    · intro rs r hrs hr
      obtain ⟨path, rfl⟩ := Location.resources_package hl hrs hr
      exact inPackage_ofPackage _ _

end Loader

def climbText : String := "../../../../tmp/packages/p/a.xml"

def climbImport : Element := ⟨"import", none, [("resource", climbText)], [], some 1⟩

def climbRoot : Element := ⟨"beans", none, [], [.element climbImport], some 1⟩

def climbData : List UInt8 :=
  Text.Utf8.encode "<beans><import resource=\"../../../../tmp/packages/p/a.xml\"/></beans>"

def climbLoader : Loader where
  workspace :=
    { tree := ⟨[(["tmp", "packages", "p", "a.xml"], climbData)], []⟩
      current := ["tmp", "vfs"]
      packageRoot := ["tmp", "packages"]
      packages := [["p"]] }
  parse := Xml.parse
  environment := .ofProperties []
  reporter := .collecting
  listening := false
  documents := {}

theorem parse_climbData : climbLoader.parse climbData = .ok climbRoot := by
  cbv

def climbPath (n : Nat) : List String := List.replicate n ".." ++ ["tmp", "packages", "p", "a.xml"]

theorem climbPath_climbsFirst (n : Nat) : ClimbsFirst n (climbPath n) :=
  ⟨_, rfl, by decide⟩

theorem climbPath_isName (n : Nat) : ∀ name ∈ climbPath n, IsName name := by
  intro name hm
  rcases List.mem_append.mp hm with hm | hm
  · rw [List.eq_of_mem_replicate hm]
    exact ⟨by decide, by decide, by decide⟩
  · simp only [List.mem_cons, List.not_mem_nil, or_false] at hm
    rcases hm with rfl | rfl | rfl | rfl <;> exact ⟨by decide, by decide, by decide⟩

theorem sibling_climbPath (n : Nat) :
    (Resource.package "p" (climbPath n)).sibling climbText =
      .ok (.package "p" (climbPath (n + 1))) := by
  have hp : pathNames climbText = ["..", "..", "..", "..", "tmp", "packages", "p", "a.xml"] := rfl
  have hback : ["..", "..", ".."].foldl descendOpen (climbPath n).dropLast =
      List.replicate n ".." := by
    have hfront : (climbPath n).dropLast =
        List.replicate n ".." ++ ["tmp"] ++ ["packages"] ++ ["p"] := by
      rw [climbPath, List.dropLast_append_of_ne_nil (by decide)]
      simp
    rw [hfront]
    simp only [List.foldl_cons, List.foldl_nil]
    rw [descendOpen_back (by decide), descendOpen_back (by decide), descendOpen_back (by decide)]
  have hnames : ["..", "..", "..", "..", "tmp", "packages", "p", "a.xml"] =
      ["..", "..", ".."] ++ ".." :: ["tmp", "packages", "p", "a.xml"] := rfl
  have hpath : relativeNames (applyRelativePath (renderRelative (climbPath n)) climbText) =
      climbPath (n + 1) := by
    rw [relativeNames_applyRelativePath (climbPath_isName n) (climbPath_climbsFirst n), hp, hnames,
      List.foldl_append, hback, List.foldl_cons, descendOpen_climb]
    simp [descendOpen_name, climbPath]
  exact congrArg (fun path => Except.ok (Resource.package "p" path)) hpath

theorem walk_up {t : FileTree} {place : List String} (h : t.entry? place = some .folder)
    (names : List String) : t.walk place (".." :: names) = t.walk place.dropLast names := by
  rw [FileTree.walk, h]
  exact if_neg (by decide)

theorem walk_climbPath (n : Nat) :
    climbLoader.workspace.tree.walk ["tmp", "packages", "p"] (climbPath (n + 3)) =
      .ok (["tmp", "packages", "p", "a.xml"], .file climbData) := by
  have hroot : ∀ m, climbLoader.workspace.tree.walk [] (climbPath m) =
      .ok (["tmp", "packages", "p", "a.xml"], .file climbData) := by
    intro m
    induction m with
    | zero => rfl
    | succ m ih =>
      change climbLoader.workspace.tree.walk [] (".." :: climbPath m) = _
      rw [walk_up rfl]
      exact ih
  change climbLoader.workspace.tree.walk ["tmp", "packages", "p"]
    (".." :: ".." :: ".." :: climbPath n) = _
  rw [walk_up rfl, walk_up rfl, walk_up rfl]
  exact hroot n

theorem climbPath_no_nul (n : Nat) : (climbPath n).any hasNul = false := by
  rw [climbPath, List.any_append, Bool.or_eq_false_iff]
  constructor
  · rw [List.any_eq_false]
    intro name hm
    rw [List.eq_of_mem_replicate hm]
    decide
  · rfl

theorem packageFolder_climbLoader :
    climbLoader.workspace.packageFolder? "p" = some ["tmp", "packages", "p"] := rfl

theorem present_climbPath (n : Nat) :
    (Resource.package "p" (climbPath (n + 3))).present climbLoader.workspace = .ok true := by
  simp only [Resource.present, packageFolder_climbLoader, FileTree.isFileAt, climbPath_no_nul,
    walk_climbPath]
  rfl

theorem readResource_climbPath (importer : Importer) (n : Nat) :
    climbLoader.readResource importer (.package "p" (climbPath (n + 3))) =
      climbLoader.registerDocument importer climbRoot (.package "p" (climbPath (n + 3))) := by
  have hread : (Resource.package "p" (climbPath (n + 3))).read climbLoader.workspace =
      .ok climbData := by
    simp only [Resource.read, packageFolder_climbLoader, FileTree.readAt, climbPath_no_nul,
      walk_climbPath]
    rfl
  unfold Loader.readResource
  rw [hread]
  dsimp only
  rw [parse_climbData]

def Reading.EndsIn {α : Type} (f : Failure) (loading : List Resource) (act : Reading α) : Prop :=
  ∀ s, s.loading = loading → (act s).1 = .error f

namespace Reading.EndsIn

variable {α β : Type} {f : Failure} {loading : List Resource}

theorem bind {act : Reading α} (h : EndsIn f loading act) (next : α → Reading β) :
    EndsIn f loading (act >>= next) := by
  intro s hs
  have he := h s hs
  rcases ha : act s with ⟨o, t⟩
  rw [ha] at he
  subst he
  rw [bind_error next ha]

theorem after {act : Reading α} {next : α → Reading β} (ha : Quiet .collecting act)
    (hn : ∀ a, EndsIn f loading (next a)) : EndsIn f loading (act >>= next) := by
  intro s hs
  obtain ⟨hl, -, -, hf⟩ := ha s
  rcases h : act s with ⟨g | a, t⟩
  · rw [h] at hf
    exact absurd (hf g rfl) id
  · rw [h] at hl
    rw [bind_ok next h]
    exact hn a t (hl.trans hs)

theorem withFreshNames {act : Reading α} (h : EndsIn f loading act) :
    EndsIn f loading (withFreshNames act) := by
  intro s hs
  exact h { s with usedNames := [] } hs

end Reading.EndsIn

theorem registerDocument_climbRoot {importer : Importer} {r : Resource} {f : Failure}
    {loading : List Resource}
    (h : Reading.EndsIn f loading ((climbLoader.context importer r).importElement climbImport)) :
    Reading.EndsIn f loading (climbLoader.registerDocument importer climbRoot r) := by
  refine .after .get fun before => .bind ?_ _
  change Reading.EndsIn f loading (climbLoader.documents.readScope _ _ _)
  rw [DocumentReader.readScope_eq]
  have hadmits : climbLoader.documents.admits (climbLoader.context importer r) climbRoot =
      pure true := rfl
  rw [hadmits, pure_bind]
  refine .after (Context.fire_quiet _) fun _ => .after (.enter rfl) fun _ => .bind ?_ _
  refine .withFreshNames ?_
  change Reading.EndsIn f loading (climbLoader.documents.readContents _ [.element climbImport])
  rw [DocumentReader.readContents_element]
  exact .bind h _

theorem climbImport_blank : Text.allBlank (climbImport.attr "resource") = false := rfl

theorem climbText_free : PlaceholderFree climbText := by
  intro body hb
  have hpieces : Piece.ofChars climbText.toList = [.literal climbText.toList] := by
    cbv
  rw [hpieces] at hb
  cases List.mem_singleton.mp hb

theorem climbImport_resolves :
    climbLoader.environment.resolveRequired (climbImport.attr "resource") = .ok climbText :=
  Loader.resolveRequired_free _ climbText_free

theorem climbText_not_absolute : Location.isAbsolute climbText = false := by
  decide +kernel

theorem climbText_relative : LocationKind.of climbText = .relative := by
  rw [LocationKind.of, climbText_not_absolute]
  rfl

theorem climbImport_escapes : (LocationKind.of climbText).contains .exhausted = false := by
  rw [climbText_relative]
  rfl

theorem climbImport_loads (depth n : Nat) (s : Session) :
    (climbLoader.context (climbLoader.importer depth) (.package "p" (climbPath (n + 3)))).loadNamed
        climbText (.of climbText) s =
      ((((climbLoader.importer depth).loadResource (.package "p" (climbPath (n + 1 + 3))) s).1,
        if ((climbLoader.importer depth).loadResource
            (.package "p" (climbPath (n + 1 + 3))) s).1.toBool then
          [.package "p" (climbPath (n + 1 + 3))] else []),
        ((climbLoader.importer depth).loadResource (.package "p" (climbPath (n + 1 + 3))) s).2) := by
  rw [climbText_relative]
  let context := climbLoader.context (climbLoader.importer depth) (.package "p" (climbPath (n + 3)))
  have hs : context.resource.sibling climbText = .ok (.package "p" (climbPath (n + 1 + 3))) := by
    rw [Nat.add_right_comm]
    exact sibling_climbPath (n + 3)
  exact Context.loadNamed_present hs (present_climbPath (n + 1)) (climbLoader.importer depth) s

theorem climb_exhausted (depth n : Nat) (s : Session)
    (hs : ∀ q ∈ s.loading, ∃ m < n, q = .package "p" (climbPath (m + 3))) :
    ((climbLoader.importer depth).loadResource (.package "p" (climbPath (n + 3))) s).1 =
      .error .exhausted := by
  induction depth generalizing n s with
  | zero => rfl
  | succ depth ih =>
    -- The resources under loading climb less often than this one.
    have hnew : s.loading.any (Resource.same (.package "p" (climbPath (n + 3)))) = false := by
      rw [List.any_eq_false]
      intro q hq hsame
      obtain ⟨m, hm, rfl⟩ := hs q hq
      have hpath : climbPath (n + 3) = climbPath (m + 3) := by
        simpa [Resource.same] using hsame
      have hclimbs := (climbPath_climbsFirst (n + 3)).climbs
      rw [hpath, (climbPath_climbsFirst (m + 3)).climbs] at hclimbs
      omega
    change (climbLoader.loadResource (climbLoader.importer depth) _ s).1 = _
    rw [Loader.loadResource_apply, hnew, present_climbPath, readResource_climbPath]
    refine registerDocument_climbRoot (fun t ht => ?_) _ rfl
    have hload := climbImport_loads depth n t
    have hmore : ∀ q ∈ t.loading, ∃ m < n + 1, q = .package "p" (climbPath (m + 3)) := by
      intro q hq
      rw [ht] at hq
      rcases List.mem_cons.mp hq with rfl | hq
      · exact ⟨n, Nat.lt_succ_self n, rfl⟩
      · obtain ⟨m, hm, rfl⟩ := hs q hq
        exact ⟨m, Nat.lt_succ_of_lt hm, rfl⟩
    rw [Context.importElement_apply (climbLoader.context _ _) climbImport_blank climbImport_resolves hload,
      ih (n + 1) t hmore, Context.endImport_escapes climbImport_escapes]
    rfl

def climbLocation : String := "package:p/../../../../tmp/packages/p/a.xml"

theorem climbLocation_package : climbLocation.startsWith packagePrefix = true := by
  cbv

theorem resources_climbLocation : Location.resources climbLoader.workspace climbLocation =
    .ok [.package "p" (climbPath 4)] := by
  have hl := climbLocation_package
  have hn : Location.isPackageName ((climbLocation.toList.drop packagePrefix.length).takeWhile
      (· != '/')) = true := rfl
  have hr : Location.resource climbLoader.workspace climbLocation =
      .ok (.package "p" (climbPath 4)) := by
    unfold Location.resource
    rw [if_pos hl]
    dsimp only
    rw [hn]
    rfl
  unfold Location.resources
  rw [hl, hr]
  rfl

theorem climbLocation_exhausted (depth : Nat) :
    ((climbLoader.importer depth).loadLocation climbLocation [] {}).1.1 = .error .exhausted := by
  cases depth with
  | zero => rfl
  | succ depth =>
    have hload : (climbLoader.loadResource (climbLoader.importer depth)
        (.package "p" (climbPath 4)) {}).1 = .error .exhausted :=
      climb_exhausted (depth + 1) 1 {} (by simp)
    rcases hr : climbLoader.loadResource (climbLoader.importer depth)
      (.package "p" (climbPath 4)) {} with ⟨o, t⟩
    rw [hr] at hload
    subst hload
    change (climbLoader.loadLocation (climbLoader.importer depth) climbLocation [] {}).1.1 = _
    unfold Loader.loadLocation
    rw [resources_climbLocation]
    simp only [Loader.loadAll, bind, StateT.bind, ExceptT.run, hr]
    rfl

theorem climbLoader_importsRelative : climbLoader.ImportsRelative := by
  intro place data root e hm hx he
  obtain ⟨rfl, rfl⟩ := Prod.mk.inj (List.mem_singleton.mp hm)
  rw [parse_climbData] at hx
  obtain rfl := Except.ok.inj hx
  have hclimb : e = climbImport := by
    cases he with
    | child hs hm hd hk =>
      cases List.mem_singleton.mp hm
      rfl
    | nested hs hm hd hk =>
      cases List.mem_singleton.mp hm
      cases hk
  rw [hclimb]
  exact ⟨climbText_free, climbText_not_absolute⟩

theorem climbLoader_never_ends :
    climbLoader.ImportsRelative ∧ ¬ climbLoader.LocationEnds climbLocation [] {} := by
  refine ⟨climbLoader_importsRelative, ?_⟩
  rintro ⟨depth, hkind, -⟩
  exact hkind _ (climbLocation_exhausted depth) rfl

theorem climbLoader_climbs_unbounded :
    climbLoader.documents.handlers = [] ∧ climbLoader.ImportsRelative ∧
      climbLocation.startsWith packagePrefix = true ∧
      ¬ ∃ bound, ∀ depth,
        ∀ q ∈ ((climbLoader.importer depth).loadLocation climbLocation [] {}).2.begun,
          q.climbs ≤ bound := by
  refine ⟨rfl, climbLoader_importsRelative, climbLocation_package, fun hb => ?_⟩
  obtain ⟨depth, hkind, -⟩ := (Loader.package_loading_ends_iff rfl climbLoader_importsRelative
    climbLocation_package [] {}).mpr hb
  exact hkind _ (climbLocation_exhausted depth) rfl

end BeanCatalog
