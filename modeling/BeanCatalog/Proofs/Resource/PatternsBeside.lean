import BeanCatalog.Proofs.Resource.Matches
import BeanCatalog.Proofs.Resource.Siblings

namespace BeanCatalog

structure PatternBeside (location : String) : Prop where
  plain : PlainInUrl location
  noColon : ':' ∉ location.toList
  noNul : hasNul location = false
  star : '*' ∈ location.toList

namespace Url

theorem splitScheme_plain {cs : List Char} (h : ':' ∉ cs) : splitScheme cs = ([], cs) := by
  have hwhole : cs.takeWhile (· != ':') = cs := by
    apply List.takeWhile_eq_self_iff.mpr
    intro c hc
    exact bne_iff_ne.mpr fun he => h (he ▸ hc)
  unfold splitScheme
  simp only [hwhole, List.drop_length]

theorem clean_subset (cs : List Char) : clean cs ⊆ cs := fun _ hm =>
  (List.dropWhile_sublist _).subset (List.mem_of_mem_filter hm)

theorem scheme_of_noColon {s : String} {url : Url} (h : ':' ∉ s.toList) (hs : split s = .ok url) :
    url.scheme = "" := by
  have hclean : ':' ∉ clean s.toList := fun hm => h (clean_subset _ hm)
  rw [split, splitScheme_plain hclean] at hs
  dsimp only at hs
  generalize splitAuthority (clean s.toList) = parts at hs
  obtain ⟨-, -, hs⟩ := bind_eq_ok hs
  split at hs
  · cases hs
  · cases hs
    rfl

end Url

namespace PatternBeside

variable {location : String} (h : PatternBeside location)

include h

theorem wild : Text.hasWildcard location = true :=
  List.any_eq_true.mpr ⟨'*', h.star, rfl⟩

theorem ne_empty : location ≠ "" := by
  rintro rfl
  exact absurd h.star List.not_mem_nil

theorem not_absolute : Location.isAbsolute location = false := by
  have hscheme {pre : String} (hp : ':' ∈ pre.toList) : location.startsWith pre = false := by
    rw [String.startsWith_string_eq_false_iff]
    exact fun hpre => h.noColon (hpre.subset hp)
  have hblank : ':' ∉ (String.ofList (location.toList.flatMap fun c =>
      if c = ' ' then ['%', '2', '0'] else [c])).toList := by
    rw [String.toList_ofList, List.mem_flatMap]
    rintro ⟨c, hc, hm⟩
    split at hm
    · exact absurd hm (by decide)
    · exact h.noColon (List.mem_singleton.mp hm ▸ hc)
  rw [Location.isAbsolute, Location.isUrl, hscheme (by decide), hscheme (by decide)]
  cases hs : Url.split (String.ofList (location.toList.flatMap fun c =>
      if c = ' ' then ['%', '2', '0'] else [c])) with
  | error err => rfl
  | ok url =>
    simp only [Url.scheme_of_noColon hblank hs]
    rfl

end PatternBeside

namespace Workspace

variable {w : Workspace} {folder place : List String} {location : String}

def Beside (w : Workspace) (folder : List String) (location : String) (place : List String) : Prop :=
  (∃ route, Glob.Leads w.tree folder (Glob.segments location) route place) ∧
    w.tree.isFile place = true

def ThroughFolder (w : Workspace) (folder : List String) (location : String) (place : List String) :
    Prop :=
  (∃ route, Glob.Leads w.tree [] (folder.map Glob.Segment.ofString ++ Glob.segments location)
    route place) ∧ w.tree.isFile place = true

theorem throughFolder_iff (hw : w.tree.WellFormed) (hf : w.tree.isFolder folder = true)
    (hp : ∀ name ∈ folder, Text.hasWildcard name = false) (hl : Text.hasWildcard location = true) :
    w.ThroughFolder folder location place ↔ w.Beside folder location place := by
  have hentry := hw.entry?_folder_iff.mpr hf
  have hname (name : String) (hm : name ∈ folder) : FileName name :=
    hw.fileName_of_entry? (by rw [hentry]; rfl) hm
  have hliteral : folder.map Glob.Segment.ofString = folder.map .literal :=
    List.map_congr_left fun name hm => Glob.Segment.ofString_plain (hp name hm)
  have hnames : folder.filter (· ≠ ".") = folder :=
    List.filter_eq_self.mpr fun name hm => decide_eq_true (hname name hm).ne_dot
  have hwalk : w.tree.walk [] folder = .ok (folder, .folder) := hw.walk_of_entry? (p := []) hentry
  have hends : Glob.ends w.tree (folder.map Glob.Segment.ofString ++ Glob.segments location) [] =
      Glob.ends w.tree (Glob.segments location) folder := by
    rw [hliteral, Glob.ends_literals hw (fun name hm => ⟨(hname name hm).ne_empty,
      (hname name hm).no_slash⟩) (Glob.segments_ne_nil hl), hnames, hwalk]
    rfl
  rw [ThroughFolder, Beside, ← Glob.mem_ends_iff, ← Glob.mem_ends_iff, hends]

end Workspace

namespace AbsolutePath

theorem render_cut {path : AbsolutePath} (h : path.Normal) (hne : path.names ≠ []) :
    ∃ front last, path.render = front ++ "/" ++ last ∧ '/' ∉ last.toList ∧
      slashRuns front = path.names.dropLast := by
  obtain ⟨doubleRoot, names⟩ := path
  obtain ⟨folder, last, rfl⟩ := (List.eq_nil_or_concat names).resolve_left hne
  rw [List.concat_eq_append] at h ⊢
  have hlast : '/' ∉ last.toList := (h.isName last (by simp)).no_slash
  have hfolder : Normal ⟨doubleRoot, folder⟩ := by
    have hparent := h.dropLast
    rwa [List.dropLast_concat] at hparent
  rw [List.dropLast_concat]
  by_cases hnil : folder = []
  · subst hnil
    have hroot : render ⟨doubleRoot, [last]⟩ = root doubleRoot ++ last := by
      rw [render_eq, String.intercalate_singleton]
    cases doubleRoot with
    | false => exact ⟨"", last, by rw [List.nil_append, hroot]; rfl, hlast, rfl⟩
    | true => exact ⟨"/", last, by rw [List.nil_append, hroot]; rfl, hlast, rfl⟩
  · exact ⟨_, last, render_concat hnil last, hlast, slashRuns_render hfolder⟩

theorem normal_of_isFile {t : FileTree} (ht : t.WellFormed) {path : AbsolutePath}
    (h : t.isFile path.names = true) : path.Normal ∧ path.names ≠ [] := by
  have hname (name : String) (hm : name ∈ path.names) : FileName name := ht.fileName_of_isFile h hm
  refine ⟨⟨fun name hm => (hname name hm).toIsName, fun hm => (hname _ hm).noClimb rfl⟩, fun hnil => ?_⟩
  have hfolder := ht.isFolder_of_isFile h
  rw [hnil] at hfolder
  cases hfolder

theorem hasNul_front {t : FileTree} (ht : t.WellFormed) {path : AbsolutePath}
    (h : t.isFile path.names = true) {front last : String} (hcut : path.render = front ++ "/" ++ last) :
    hasNul front = false := by
  have hnames : hasNul ("/".intercalate path.names) = false :=
    Glob.hasNul_intercalate fun name hm => (ht.fileName_of_isFile h hm).noNul
  have hwhole : hasNul path.render = false := by
    rw [render_eq, hasNul_append, hnames, Bool.or_false]
    cases path.doubleRoot <;> rfl
  rw [hcut, hasNul_append, hasNul_append, Bool.or_eq_false_iff, Bool.or_eq_false_iff] at hwhole
  exact hwhole.1.1

end AbsolutePath

theorem hasWildcard_behind {s : String} (h : Text.hasWildcard s = true) (front : String) :
    Text.hasWildcard (front ++ s) = true := by
  rw [Text.hasWildcard, String.toList_append, List.any_append, Bool.or_eq_true]
  exact .inr h

theorem hasNul_slashed (s : String) : hasNul (slashed s) = hasNul s := by
  rcases slashed_toList s with he | he <;> rw [hasNul, he] <;> rfl

namespace Glob

theorem slashRuns_slashed (front location : String) :
    slashRuns (front ++ slashed location) = slashRuns front ++ slashRuns location := by
  rcases slashed_toList location with hs | hs
  · obtain ⟨rest, hrest⟩ := List.head?_eq_some_iff.mp (hs ▸ head?_slashed location)
    have hlocation : location.toList = "".toList ++ '/' :: (String.ofList rest).toList := by
      simpa using hrest
    have hcut : (front ++ slashed location).toList =
        front.toList ++ '/' :: (String.ofList rest).toList := by
      rw [String.toList_append, hs, hlocation]
      rfl
    rw [slashRuns_append hcut, slashRuns_append hlocation]
    rfl
  · have hcut : (front ++ slashed location).toList = front.toList ++ '/' :: location.toList := by
      rw [String.toList_append, hs]
    exact slashRuns_append hcut

theorem segments_slashed (front : String) {location : String} (hl : location ≠ "") :
    segments (front ++ slashed location) =
      (slashRuns front).map Segment.ofString ++ segments location := by
  have hne : location.toList ≠ [] := fun he => hl (String.toList_eq_nil_iff.mp he)
  have hlast : (front ++ slashed location).toList.getLast? = location.toList.getLast? := by
    rw [String.toList_append]
    rcases slashed_toList location with hs | hs
    · rw [hs, List.getLast?_append_of_ne_nil _ hne]
    · rw [hs, List.append_cons, List.getLast?_append_of_ne_nil _ hne]
  simp only [segments, hlast, slashRuns_slashed]
  split
  · rw [List.append_assoc, List.map_append]
  · rw [List.map_append]

end Glob

namespace Location

theorem resources_patternUrl {w : Workspace} (hw : w.tree.WellFormed) {path : AbsolutePath}
    (hfile : w.tree.isFile path.names = true) {location : String} (hl : PatternBeside location) :
    ∃ rs, resources w (applyRelativePath ("file://" ++ Percent.encode path.render) location) = .ok rs ∧
      ∃ doubleRoot, ∀ r, r ∈ rs ↔ ∃ place, w.ThroughFolder path.names.dropLast location place ∧
        r = .file ⟨doubleRoot, place⟩ := by
  obtain ⟨hnormal, hne⟩ := AbsolutePath.normal_of_isFile hw hfile
  obtain ⟨front, last, hcut, hlast, hruns⟩ := AbsolutePath.render_cut hnormal hne
  have hrooted := path.head?_render
  rw [hcut] at hrooted ⊢
  have hhead := head?_append_slashed hrooted location
  -- decoding gives the names of the folder back, and wildcards in them are not told from those behind
  have hto := toPath_fileUrl hhead hl.plain.slashed
  have hurl : ("file://" ++ (Percent.encode front ++ slashed location)).startsWith packagePrefix =
      false :=
    startsWith_head (Url.fileUrl_toList _) rfl (by decide)
  have hslashed : Text.hasWildcard (slashed location) = true :=
    (hasWildcard_slashed location).trans hl.wild
  have hnul : hasNul (front ++ slashed location) = false := by
    rw [hasNul_append, AbsolutePath.hasNul_front hw hfile hcut, Bool.false_or, hasNul_slashed]
    exact hl.noNul
  have horigin : Glob.origin w.current (front ++ slashed location) = [] :=
    if_pos (Glob.startsWith_slash_iff.mpr hhead)
  obtain ⟨rs, hrs, hperm⟩ := matched_ends (w := w) hw (hasWildcard_behind hslashed front) hnul
  rw [applyRelativePath_fileUrl hlast, resources_pattern hurl
    (hasWildcard_behind (hasWildcard_behind hslashed _) _) hto]
  refine ⟨rs, hrs, AbsolutePath.startsDouble (front ++ slashed location).toList, fun r => ?_⟩
  rw [hperm.mem_iff, horigin, Glob.segments_slashed front hl.ne_empty, hruns]
  simp only [List.mem_map, List.mem_filter, Glob.mem_ends_iff, Workspace.ThroughFolder, eq_comm]

end Location

end BeanCatalog
