import BeanCatalog.Proofs.Files.Patterns
import BeanCatalog.Proofs.Loading.ImportEvents
import BeanCatalog.Proofs.Resource.PatternUrls
import BeanCatalog.Xml.Document

namespace BeanCatalog

/-- A text that is globbed as it stands: no place in a package, no URL, and some wildcard in it. -/
structure PathPattern (location : String) : Prop where
  noPackage : location.startsWith packagePrefix = false
  noFile : location.startsWith Location.filePrefix = false
  wild : Text.hasWildcard location = true
  noNul : hasNul location = false

namespace Workspace

def Routes (w : Workspace) (pattern : String) (route : List (List String)) (place : List String) :
    Prop :=
  Glob.Leads w.tree (Glob.origin w.current pattern) (Glob.segments pattern) route place ∧
    w.tree.isFile place = true

end Workspace

namespace Location

variable {w : Workspace} {location : String}

theorem matched_ends (hw : w.tree.WellFormed) (hwild : Text.hasWildcard location = true)
    (hnul : hasNul location = false) :
    ∃ rs, matched w location = .ok rs ∧
      rs.Perm (((Glob.ends w.tree (Glob.segments location) (Glob.origin w.current location)).filter
        w.tree.isFile).map fun place =>
          .file ⟨AbsolutePath.startsDouble location.toList, place⟩) := by
  obtain ⟨paths, hpaths, hperm⟩ := Glob.files_ends hw hwild hnul w.current
  refine ⟨paths.map (Resource.ofFile w), by rw [matched, hpaths]; rfl, ?_⟩
  have hrs := hperm.map Resource.file
  rw [List.map_map, List.map_map] at hrs
  exact hrs

theorem pairwise_files_iff {doubleRoot : Bool} {rs : List Resource} {places : List (List String)}
    (h : rs.Perm (places.map fun place => .file ⟨doubleRoot, place⟩)) :
    rs.Pairwise (fun r q => r.same q = false) ↔ places.Nodup := by
  have hsymm {r q : Resource} (hrq : r.same q = false) : q.same r = false :=
    (q.same_comm r).trans hrq
  rw [h.pairwise_iff hsymm, List.pairwise_map, List.Nodup]
  simp [Resource.same]

theorem resources_pathPattern (hp : PathPattern location) :
    resources w location = matched w location :=
  resources_pattern hp.noPackage hp.wild (by rw [toPath, hp.noFile]; rfl)

/-- The resources of a pattern exist, and they are those of the regular files that its routes lead to.
They differ from each other just when no file lies at the end of two routes. -/
theorem resources_matched (hw : w.tree.WellFormed) (hp : PathPattern location) :
    ∃ rs, resources w location = .ok rs ∧ (∀ r ∈ rs, r.present w = .ok true) ∧
      (∀ r, r ∈ rs ↔ ∃ route place, w.Routes location route place ∧
        r = .file ⟨AbsolutePath.startsDouble location.toList, place⟩) ∧
      (rs.Pairwise (fun r q => r.same q = false) ↔ ∀ route route' place,
        w.Routes location route place → w.Routes location route' place → route = route') := by
  obtain ⟨rs, hrs, hperm⟩ := matched_ends hw hp.wild hp.noNul
  have hmem (r : Resource) : r ∈ rs ↔ ∃ route place, w.Routes location route place ∧
      r = .file ⟨AbsolutePath.startsDouble location.toList, place⟩ := by
    simp only [hperm.mem_iff, List.mem_map, List.mem_filter, Glob.mem_ends_iff]
    constructor
    · rintro ⟨place, ⟨⟨route, hroute⟩, hfile⟩, rfl⟩
      exact ⟨route, place, ⟨hroute, hfile⟩, rfl⟩
    · rintro ⟨route, place, ⟨hroute, hfile⟩, rfl⟩
      exact ⟨place, ⟨⟨route, hroute⟩, hfile⟩, rfl⟩
  refine ⟨rs, (resources_pathPattern hp).trans hrs, fun r hr => ?_, hmem, ?_⟩
  · obtain ⟨route, place, ⟨-, hfile⟩, rfl⟩ := (hmem r).mp hr
    rw [Resource.present, hw.isFileAt_of_isFile hfile]
    rfl
  · rw [pairwise_files_iff hperm, Glob.nodup_filter_ends_iff]
    constructor
    · rintro h route route' place ⟨hroute, hfile⟩ ⟨hroute', -⟩
      exact h place route route' hfile hroute hroute'
    · intro h place route route' hfile hroute hroute'
      exact h route route' place ⟨hroute, hfile⟩ ⟨hroute', hfile⟩

theorem resources_distinct (hw : w.tree.WellFormed) (hp : PathPattern location)
    (hc : ∀ name, .literal name ∈ (Glob.ofString location).2 → ".." ∉ pathNames name)
    (hd : (Glob.ofString location).2.count .anyDepth ≤ 1) :
    ∃ rs, resources w location = .ok rs ∧ rs.Pairwise fun r q => r.same q = false := by
  obtain ⟨rs, hrs, hperm⟩ := matched_ends hw hp.wild hp.noNul
  refine ⟨rs, (resources_pathPattern hp).trans hrs, ?_⟩
  rw [pairwise_files_iff hperm]
  exact (Glob.nodup_ends hw hp.wild hp.noNul hc hd w.current).filter _

end Location

def twoFolders : Workspace where
  tree := ⟨[(["tmp", "vfs", "d1", "x"], []), (["tmp", "vfs", "d2", "x"], []),
    (["tmp", "vfs", "a.xml"], Text.Utf8.encode "<beans/>")], []⟩
  current := ["tmp", "vfs"]
  packageRoot := ["tmp", "packages"]
  packages := []

def twoFoldersLoader : Loader where
  workspace := twoFolders
  parse := Xml.parse
  environment := .ofProperties []
  reporter := .collecting
  listening := true
  documents := {}

theorem wellFormed_twoFolders : twoFolders.tree.WellFormed where
  fileName := by decide +kernel
  leaf := by decide +kernel

theorem pathPattern_climbing : PathPattern "*/../a.xml" := by
  constructor <;> decide +kernel

theorem climbing_pattern_repeats :
    let file := Resource.ofFile twoFolders "a.xml"
    let run := twoFoldersLoader.loadLocation (twoFoldersLoader.importer 1) "*/../a.xml" [] {}
    Location.resources twoFolders "*/../a.xml" = .ok [file, file] ∧
      run.2.journal.filterMap (fun
        | .began r => some r
        | _ => none) = [file, file] := by
  have hnamed : Location.resources twoFolders "*/../a.xml" =
      .ok (List.replicate 2 (Resource.ofFile twoFolders "a.xml")) := by
    have hp := pathPattern_climbing
    obtain ⟨rs, hrs, hperm⟩ := Location.matched_ends wellFormed_twoFolders hp.wild hp.noNul
    rw [Location.resources_pathPattern hp, hrs]
    -- the order does not matter, as both are the same
    refine congrArg Except.ok (List.perm_replicate.mp (hperm.trans (.of_eq ?_)))
    decide +kernel
  refine ⟨hnamed, ?_⟩
  have hloaded : Location.resources twoFoldersLoader.workspace "*/../a.xml" = _ := hnamed
  rw [Loader.loadLocation, hloaded]
  decide +kernel

theorem twoFolders_matched :
    twoFolders.tree.WellFormed ∧ PathPattern "*/../a.xml" ∧
      ∃ rs, Location.resources twoFolders "*/../a.xml" = .ok rs ∧
        Resource.ofFile twoFolders "a.xml" ∈ rs ∧ ¬ rs.Pairwise fun r q => r.same q = false := by
  refine ⟨wellFormed_twoFolders, pathPattern_climbing, ?_⟩
  obtain ⟨rs, hrs, -, hmem, hdistinct⟩ :=
    Location.resources_matched wellFormed_twoFolders pathPattern_climbing
  have hroute : ∀ folder ∈ ["d1", "d2"],
      twoFolders.Routes "*/../a.xml" [[folder], [".."], ["a.xml"]] ["tmp", "vfs", "a.xml"] := by
    intro folder hm
    refine ⟨Glob.mem_routes_iff.mp ?_, by decide +kernel⟩
    revert folder
    decide +kernel
  refine ⟨rs, hrs, (hmem _).mpr ⟨_, _, hroute "d1" (by decide), by decide +kernel⟩, ?_⟩
  intro h
  have hsame := hdistinct.mp h _ _ _ (hroute "d1" (by decide)) (hroute "d2" (by decide))
  exact absurd hsame (by decide)

end BeanCatalog
