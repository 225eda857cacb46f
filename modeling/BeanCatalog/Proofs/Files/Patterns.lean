import BeanCatalog.Proofs.Files.Globbing
import Mathlib.Data.List.TakeWhile

namespace BeanCatalog

theorem slashRuns_slash (s : String) : slashRuns (s ++ "/") = slashRuns s := by
  have hcut : (s ++ "/").toList = s.toList ++ '/' :: "".toList := by simp
  have hnone : slashRuns "" = [] := rfl
  rw [slashRuns_append hcut, hnone, List.append_nil]

theorem slashRuns_slashes {slashes : List Char} (h : ∀ c ∈ slashes, c = '/') (s : String) :
    slashRuns (s ++ String.ofList slashes) = slashRuns s := by
  induction slashes generalizing s with
  | nil => rw [String.ofList_nil, String.append_empty]
  | cons c slashes ih =>
    have hcut : s ++ String.ofList (c :: slashes) = s ++ "/" ++ String.ofList slashes := by
      rw [← String.toList_inj, h c List.mem_cons_self]
      simp
    rw [hcut, ih fun d hd => h d (List.mem_cons_of_mem c hd), slashRuns_slash]

theorem subset_of_mem_slashRuns {s name : String} (h : name ∈ slashRuns s) :
    name.toList ⊆ s.toList := by
  obtain ⟨run, hrun, rfl⟩ := List.mem_map.mp (List.mem_of_mem_filter h)
  rw [String.toList_ofList]
  exact subset_of_mem_splitAny hrun

theorem slashRuns_ofList (cs : List Char) :
    ((Text.splitAny ['/'] cs).filter (· ≠ [])).map String.ofList = slashRuns (String.ofList cs) := by
  rw [slashRuns, List.filter_map, String.toList_ofList]
  congr 1
  apply List.filter_congr
  intro run _
  have hempty : String.ofList run = "" ↔ run = [] := by
    rw [← String.toList_inj, String.toList_ofList]
    rfl
  simp [hempty]

namespace Glob

variable {tree : FileTree} {current place : List String} {s : String} {segs : List Segment}

theorem trimSlashes_cases (cs : List Char) :
    (trimSlashes cs = cs ∧ ∀ c ∈ cs, c = '/') ∨
      ∃ slashes, cs = trimSlashes cs ++ slashes ∧ (∀ c ∈ slashes, c = '/') ∧
        trimSlashes cs ≠ [] ∧ (trimSlashes cs).getLast? ≠ some '/' := by
  let front := (cs.reverse.dropWhile (· == '/')).reverse
  let slashes := (cs.reverse.takeWhile (· == '/')).reverse
  have hcut : cs = front ++ slashes := by
    rw [← List.reverse_append, List.takeWhile_append_dropWhile, List.reverse_reverse]
  have hslashes : ∀ c ∈ slashes, c = '/' := by
    intro c hc
    have hall := List.all_takeWhile (p := (· == '/')) (l := cs.reverse)
    exact beq_iff_eq.mp (List.all_eq_true.mp hall c (List.mem_reverse.mp hc))
  by_cases hf : front = []
  · have htrim : trimSlashes cs = cs := by
      unfold trimSlashes
      rw [if_pos (List.isEmpty_iff.mpr hf)]
    refine .inl ⟨htrim, ?_⟩
    rwa [hcut, hf, List.nil_append]
  · have htrim : trimSlashes cs = front := by
      unfold trimSlashes
      rw [if_neg fun h => hf (List.isEmpty_iff.mp h)]
    refine .inr ⟨slashes, htrim ▸ hcut, hslashes, htrim ▸ hf, ?_⟩
    rw [htrim, List.getLast?_reverse]
    intro hlast
    have hdrop := List.head?_dropWhile_not (· == '/') cs.reverse
    rw [hlast] at hdrop
    simp at hdrop

theorem slashRuns_trimSlashes (cs : List Char) :
    slashRuns (String.ofList (trimSlashes cs)) = slashRuns (String.ofList cs) := by
  rcases trimSlashes_cases cs with ⟨htrim, -⟩ | ⟨slashes, hcs, hslashes, -, -⟩
  · rw [htrim]
  · have hcut : String.ofList cs = String.ofList (trimSlashes cs) ++ String.ofList slashes := by
      rw [← String.toList_inj]
      simpa using hcs
    rw [hcut, slashRuns_slashes hslashes]

theorem trimSlashes_subset (cs : List Char) : trimSlashes cs ⊆ cs := by
  rcases trimSlashes_cases cs with ⟨htrim, -⟩ | ⟨slashes, hcs, -, -, -⟩
  · rw [htrim]
    exact List.Subset.refl cs
  · conv_rhs => rw [hcs]
    exact List.subset_append_left _ _

structure Cut (s start rest : String) : Prop where
  whole : s = start ++ rest
  folder : start = "" ∨ ∃ front, start = front ++ "/"
  plain : Text.hasWildcard start = false
  wild : Text.hasWildcard rest = true
  head : rest.toList.head? ≠ some '/'
  result : ofString s = (String.ofList (trimSlashes start.toList), segments rest)

theorem segments_ofList (cs : List Char) :
    segments (String.ofList cs) =
      (if cs.getLast? = some '/' then
        ((Text.splitAny ['/'] cs).filter (· ≠ [])).map String.ofList ++ [""]
      else ((Text.splitAny ['/'] cs).filter (· ≠ [])).map String.ofList).map Segment.ofString := by
  rw [segments, slashRuns_ofList, String.toList_ofList]

theorem Segment.ofString_plain {name : String} (h : Text.hasWildcard name = false) :
    Segment.ofString name = .literal name := by
  have hdeep : name ≠ "**" := by
    rintro rfl
    cases h
  rw [Segment.ofString, if_neg hdeep, h]
  rfl

def isPlain (c : Char) : Bool := !(c == '*' || c == '?' || c == '[')

theorem hasWildcard_eq (s : String) : Text.hasWildcard s = s.toList.any fun c => !isPlain c := by
  simp [Text.hasWildcard, isPlain]

theorem takeWhile_isPlain (h : Text.hasWildcard s = true) :
    ∃ c more, isPlain c = false ∧ s.toList = s.toList.takeWhile isPlain ++ c :: more := by
  have hcut := List.takeWhile_append_dropWhile (p := isPlain) (l := s.toList)
  cases hdrop : s.toList.dropWhile isPlain with
  | nil =>
    have hall : ∀ c ∈ s.toList, isPlain c = true := List.dropWhile_eq_nil_iff.mp hdrop
    rw [hasWildcard_eq, List.any_eq_true] at h
    obtain ⟨c, hc, hwild⟩ := h
    simp [hall c hc] at hwild
  | cons c more =>
    have hhead := List.head?_dropWhile_not isPlain s.toList
    rw [hdrop] at hhead hcut
    exact ⟨c, more, by simpa using hhead, hcut.symm⟩

theorem ofString_eq {start : List Char}
    (h : (match beforeLastSlash (s.toList.takeWhile isPlain) with
      | none => []
      | some front => front ++ ['/']) = start) :
    ofString s =
      (String.ofList (trimSlashes start), segments (String.ofList (s.toList.drop start.length))) := by
  subst h
  simp only [segments_ofList]
  rfl

theorem exists_cut (h : Text.hasWildcard s = true) : ∃ start rest, Cut s start rest := by
  obtain ⟨c, more, hc, hs⟩ := takeWhile_isPlain h
  have hslash : c ≠ '/' := by
    rintro rfl
    exact absurd hc (by decide)
  have hplain : ∀ d ∈ s.toList.takeWhile isPlain, isPlain d = true :=
    List.all_eq_true.mp List.all_takeWhile
  have hhead {last : List Char} (hlast : '/' ∉ last) : (last ++ c :: more).head? ≠ some '/' := by
    cases last with
    | nil => exact fun he => hslash (Option.some.inj he)
    | cons d last => exact fun he => hlast (Option.some.inj he ▸ List.mem_cons_self)
  -- globbing starts behind the last slash in front of the first wildcard
  rcases cut_cases (String.ofList (s.toList.takeWhile isPlain)) with hnone | ⟨front, last, hcut, hlast⟩
  · rw [String.toList_ofList] at hnone
    refine ⟨"", s, String.empty_append.symm, .inl rfl, rfl, h, ?_, ?_⟩
    · rw [hs]
      exact hhead hnone
    · have hstart := beforeLastSlash_none hnone
      rw [@ofString_eq s [] (by rw [hstart]), List.length_nil, List.drop_zero, String.ofList_toList]
      rfl
  · have hfront : s.toList.takeWhile isPlain = front.toList ++ '/' :: last.toList := by
      rw [← String.toList_ofList (l := s.toList.takeWhile isPlain), hcut]
      simp
    have hwhole : s.toList = (front ++ "/").toList ++ (last.toList ++ c :: more) := by
      rw [hs, hfront]
      simp
    refine ⟨front ++ "/", String.ofList (last.toList ++ c :: more), ?_, .inr ⟨front, rfl⟩, ?_, ?_, ?_, ?_⟩
    · rw [← String.toList_inj, hwhole]
      simp
    · rw [hasWildcard_eq, List.any_eq_false]
      intro d hd
      have hd : d ∈ s.toList.takeWhile isPlain := by
        rw [hfront, List.append_cons]
        exact List.mem_append_left _ (by simpa using hd)
      simp [hplain d hd]
    · rw [hasWildcard_eq]
      simp [hc]
    · rw [String.toList_ofList]
      exact hhead hlast
    · have hstart : (match beforeLastSlash (s.toList.takeWhile isPlain) with
          | none => []
          | some front => front ++ ['/']) = (front ++ "/").toList := by
        rw [hfront, beforeLastSlash_last hlast]
        simp
      rw [ofString_eq hstart, hwhole, List.drop_left]

def origin (current : List String) (path : String) : List String :=
  if path.startsWith "/" then [] else current

namespace Cut

variable {start rest : String} (h : Cut s start rest)

include h

theorem slashRuns_eq : slashRuns s = slashRuns start ++ slashRuns rest := by
  rcases h.folder with he | ⟨front, hfront⟩
  · rw [h.whole, he, String.empty_append]
    rfl
  · have hcut : s.toList = front.toList ++ '/' :: rest.toList := by
      rw [h.whole, hfront]
      simp
    rw [slashRuns_append hcut, hfront, slashRuns_slash]

theorem segments_eq : segments s = (slashRuns start).map .literal ++ segments rest := by
  have hrest : rest.toList ≠ [] := by
    intro he
    have hwild := h.wild
    rw [Text.hasWildcard, he] at hwild
    cases hwild
  have hlast : s.toList.getLast? = rest.toList.getLast? := by
    rw [h.whole, String.toList_append, List.getLast?_append_of_ne_nil _ hrest]
  have hliteral : (slashRuns start).map Segment.ofString = (slashRuns start).map .literal := by
    apply List.map_congr_left
    intro name hm
    apply Segment.ofString_plain
    apply List.any_eq_false.mpr
    intro c hc
    exact List.any_eq_false.mp h.plain c (subset_of_mem_slashRuns hm hc)
  simp only [segments, hlast, h.slashRuns_eq]
  split
  · rw [List.append_assoc, List.map_append, hliteral]
  · rw [List.map_append, hliteral]

theorem segments_rest_ne_nil : segments rest ≠ [] := by
  obtain ⟨c, hc, hwild⟩ := List.any_eq_true.mp h.wild
  have hslash : c ∉ ['/'] := by
    rw [List.mem_singleton]
    rintro rfl
    exact absurd hwild (by decide)
  obtain ⟨run, hrun, hm⟩ := mem_splitAny_of_mem hslash hc
  have hname : String.ofList run ∈ slashRuns rest := by
    rw [← String.ofList_toList (s := rest), ← slashRuns_ofList]
    refine List.mem_map.mpr ⟨run, List.mem_filter.mpr ⟨hrun, ?_⟩, rfl⟩
    exact decide_eq_true (List.ne_nil_of_mem hm)
  intro hnil
  have hnames := List.map_eq_nil_iff.mp hnil
  split at hnames
  · exact absurd (List.append_eq_nil_iff.mp hnames).2 (List.cons_ne_nil _ _)
  · rw [hnames] at hname
    exact absurd hname List.not_mem_nil

theorem startsDouble_trim :
    AbsolutePath.startsDouble (trimSlashes start.toList) = AbsolutePath.startsDouble s.toList := by
  rw [h.whole, String.toList_append]
  rcases trimSlashes_cases start.toList with ⟨htrim, -⟩ | ⟨slashes, hstart, -, hne, hlast⟩
  · rw [htrim, AbsolutePath.startsDouble_append (.inl h.head)]
  · have hwhole : start.toList ++ rest.toList =
        trimSlashes start.toList ++ (slashes ++ rest.toList) := by
      rw [← List.append_assoc, ← hstart]
    rw [hwhole, AbsolutePath.startsDouble_append (.inr ⟨hne, hlast⟩)]

theorem head?_trim :
    (trimSlashes start.toList).head? = some '/' ↔ s.toList.head? = some '/' := by
  rw [h.whole, String.toList_append]
  rcases trimSlashes_cases start.toList with ⟨htrim, -⟩ | ⟨slashes, hstart, -, hne, -⟩
  · rw [htrim]
    by_cases hnil : start.toList = []
    · rw [hnil]
      exact iff_of_false nofun h.head
    · rw [List.head?_append_of_ne_nil _ hnil]
  · have hhead : start.toList.head? = (trimSlashes start.toList).head? := by
      conv_lhs => rw [hstart]
      exact List.head?_append_of_ne_nil _ hne
    have hnil : start.toList ≠ [] := by
      rw [hstart]
      exact List.append_ne_nil_of_left_ne_nil hne _
    rw [List.head?_append_of_ne_nil _ hnil, hhead]

theorem hasNul_trim (hnul : hasNul s = false) :
    hasNul (String.ofList (trimSlashes start.toList)) = false := by
  apply List.any_eq_false.mpr
  intro c hc
  rw [String.toList_ofList] at hc
  refine List.any_eq_false.mp hnul c ?_
  rw [h.whole, String.toList_append]
  exact List.mem_append_left _ (trimSlashes_subset _ hc)

theorem locate_trim (hnul : hasNul s = false) :
    tree.locate current (String.ofList (trimSlashes start.toList)) =
      tree.walk (origin current s) ((slashRuns start).filter (· ≠ ".")) := by
  have hroot : (String.ofList (trimSlashes start.toList)).startsWith "/" = s.startsWith "/" := by
    rw [Bool.eq_iff_iff, startsWith_slash_iff, startsWith_slash_iff, String.toList_ofList]
    exact h.head?_trim
  rw [FileTree.locate, h.hasNul_trim hnul, hroot, pathNames_eq_filter, slashRuns_trimSlashes,
    String.ofList_toList]
  rfl

end Cut

def endsFrom (tree : FileTree) (segs : List Segment) :
    Except FileError (List String × FileEntry) → List (List String)
  | .ok (place, .folder) => ends tree segs place
  | _ => []

theorem ends_nowhere (hf : tree.isFolder place = false) (hs : segs ≠ []) :
    ends tree segs place = [] := by
  obtain ⟨seg, others, rfl⟩ := List.exists_cons_of_ne_nil hs
  rw [ends_cons, nexts, hf]
  rfl

theorem endsFrom_nowhere (hw : tree.WellFormed) (hf : tree.isFolder place = false)
    (names : List String) : endsFrom tree segs (tree.walk place names) = [] := by
  have hentry : tree.entry? place = none ∨ ∃ data, tree.entry? place = some (.file data) := by
    cases he : tree.entry? place with
    | none => exact .inl rfl
    | some entry => cases entry with
      | file data => exact .inr ⟨data, rfl⟩
      | folder => exact absurd (hf.symm.trans (hw.entry?_folder_iff.mp he)) Bool.false_ne_true
  rcases hentry with he | ⟨data, he⟩ <;> cases names <;> rw [FileTree.walk, he] <;> rfl

theorem nexts_dot (hf : tree.isFolder place = true) (last : Bool) :
    nexts tree last (.literal ".") place = [place] := by
  have hnames : pathNames "." = [] := rfl
  have hthere : (tree.entry? place).isSome = true := FileTree.entry?_isSome_iff.mpr (.inr hf)
  rw [nexts, if_pos hf, stops, hnames, List.foldl_nil, if_pos hthere]
  rfl

theorem nexts_name {name : String} (hn : IsName name) (hf : tree.isFolder place = true) (last : Bool) :
    nexts tree last (.literal name) place =
      if (tree.entry? (descend place name)).isSome then [descend place name] else [] := by
  rw [nexts, if_pos hf, stops, pathNames_of_isName hn, List.foldl_cons, List.foldl_nil]
  split <;> rfl

theorem ends_literals (hw : tree.WellFormed) {names : List String}
    (hn : ∀ name ∈ names, name ≠ "" ∧ '/' ∉ name.toList) (hs : segs ≠ []) :
    ends tree (names.map .literal ++ segs) place =
      endsFrom tree segs (tree.walk place (names.filter (· ≠ "."))) := by
  induction names generalizing place with
  | nil =>
    rw [List.map_nil, List.nil_append, List.filter_nil]
    cases hf : tree.isFolder place with
    | false => rw [ends_nowhere hf hs, endsFrom_nowhere hw hf]
    | true =>
      rw [FileTree.walk, hw.entry?_folder_iff.mpr hf]
      rfl
  | cons name names ih =>
    have hothers (other : String) (hm : other ∈ names) := hn other (List.mem_cons_of_mem name hm)
    have hrest (p : List String) := @ih p hothers
    cases hf : tree.isFolder place with
    | false =>
      -- neither side leads on from what is no folder
      rw [endsFrom_nowhere hw hf]
      exact ends_nowhere hf (List.cons_ne_nil _ _)
    | true =>
      obtain ⟨hne, hslash⟩ := hn name List.mem_cons_self
      rw [List.map_cons, List.cons_append, ends_cons]
      by_cases hdot : name = "."
      · rw [hdot, nexts_dot hf, List.flatMap_singleton, hrest, List.filter_cons_of_neg (by simp)]
      · rw [nexts_name ⟨hne, hdot, hslash⟩ hf, List.filter_cons_of_pos (by simpa using hdot)]
        by_cases he : (tree.entry? (descend place name)).isSome = true
        · rw [if_pos he, List.flatMap_singleton, hrest,
            hw.walk_folder hf (hw.name_of_descend he).2]
        · have hnowhere : tree.isFolder (descend place name) = false := by
            rw [FileTree.entry?_isSome_iff, not_or, Bool.not_eq_true] at he
            exact he.2
          rw [if_neg he, FileTree.walk, hw.entry?_folder_iff.mpr hf]
          dsimp only
          split
          · rfl
          · exact (endsFrom_nowhere hw hnowhere _).symm

theorem Cut.ends_eq {start rest : String} (h : Cut s start rest) (hw : tree.WellFormed)
    (hnul : hasNul s = false) :
    ends tree (segments s) (origin current s) =
      endsFrom tree (segments rest) (tree.locate current (ofString s).1) := by
  have hn (name : String) (hm : name ∈ slashRuns start) : name ≠ "" ∧ '/' ∉ name.toList :=
    slash_not_mem_of_mem_slashRuns hm
  rw [h.segments_eq, ends_literals hw hn h.segments_rest_ne_nil, h.result, h.locate_trim hnul]

theorem segments_ne_nil (h : Text.hasWildcard s = true) : segments s ≠ [] := by
  obtain ⟨start, rest, hcut⟩ := exists_cut h
  rw [hcut.segments_eq]
  exact List.append_ne_nil_of_right_ne_nil _ hcut.segments_rest_ne_nil

theorem single_of_mem_segments {seg : Segment} (h : seg ∈ segments s) : seg.Single := by
  obtain ⟨name, hm, rfl⟩ := List.mem_map.mp h
  have hslash : '/' ∉ name.toList := by
    split at hm
    · rcases List.mem_append.mp hm with hm | hm
      · exact (slash_not_mem_of_mem_slashRuns hm).2
      · rw [List.mem_singleton.mp hm]
        exact List.not_mem_nil
    · exact (slash_not_mem_of_mem_slashRuns hm).2
  unfold Segment.ofString
  split
  · trivial
  · split
    · trivial
    · exact hslash

theorem expandAll_start (hw : tree.WellFormed) (hs : ∀ seg ∈ segs, seg.Single) (hne : segs ≠ [])
    {start : String} (hnul : hasNul start = false) :
    ∃ found, expandAll tree current [start] segs = .ok found ∧
      List.Forall₂ (Spells tree current (AbsolutePath.startsDouble start.toList)) found
        (endsFrom tree segs (tree.locate current start)) := by
  cases hl : tree.locate current start with
  | ok place =>
    obtain ⟨place, entry⟩ := place
    have hstart : List.Forall₂ (Spells tree current (AbsolutePath.startsDouble start.toList))
        [start] [place] := .cons ⟨⟨entry, hl⟩, rfl⟩ .nil
    obtain ⟨found, hfound, hall⟩ := expandAll_spells hw hs hstart
    rw [List.flatMap_singleton] at hall
    refine ⟨found, hfound, ?_⟩
    cases entry with
    | folder => exact hall
    | file data =>
      have hf := hw.isFolder_of_isFile (FileTree.isFile_iff.mpr ⟨data, locate_ok hl⟩)
      rwa [ends_nowhere hf hne] at hall
  | error err =>
    -- the first segment finds nothing then, and the others go on from nothing
    obtain ⟨seg, others, rfl⟩ := List.exists_cons_of_ne_nil hne
    have hnone := expand_nowhere (hs seg List.mem_cons_self) hnul others.isEmpty
      fun place hp => nomatch hl.symm.trans hp
    have hothers (other : Segment) (hm : other ∈ others) := hs other (List.mem_cons_of_mem seg hm)
    obtain ⟨found, hfound, hall⟩ := @expandAll_spells tree current _ _ hw hothers [] [] .nil
    refine ⟨found, ?_, hall⟩
    rw [expandAll, List.mapM_cons, hnone]
    exact hfound

theorem map_ofString_filter {doubleRoot : Bool} {paths : List String} {places : List (List String)}
    (h : List.Forall₂ (Spells tree current doubleRoot) paths places) :
    (paths.filter fun path =>
        match tree.locate current path with
        | .ok (_, .file _) => true
        | _ => false).map (AbsolutePath.ofString current) =
      (places.filter tree.isFile).map (AbsolutePath.mk doubleRoot) := by
  induction h with
  | nil => rfl
  | @cons path place paths places hpath _ ih =>
    obtain ⟨entry, hl⟩ := hpath.leads
    have he := locate_ok hl
    rw [List.filter_cons, List.filter_cons, hl, FileTree.isFile, he]
    cases entry with
    | folder => exact ih
    | file data => exact congrArg₂ List.cons hpath.ofString ih

theorem files_ends (hw : tree.WellFormed) (hwild : Text.hasWildcard s = true)
    (hnul : hasNul s = false) (current : List String) :
    ∃ paths, files tree current s = .ok paths ∧
      (paths.map (AbsolutePath.ofString current)).Perm
        (((ends tree (segments s) (origin current s)).filter tree.isFile).map
          (AbsolutePath.mk (AbsolutePath.startsDouble s.toList))) := by
  obtain ⟨start, rest, hcut⟩ := exists_cut hwild
  have hsingle (seg : Segment) (hm : seg ∈ segments rest) : seg.Single := single_of_mem_segments hm
  obtain ⟨found, hfound, hall⟩ := @expandAll_start tree current _ hw hsingle
    hcut.segments_rest_ne_nil _ (hcut.hasNul_trim hnul)
  rw [String.toList_ofList, hcut.startsDouble_trim] at hall
  refine ⟨_, by simp only [files, hcut.result, hfound]; rfl, ?_⟩
  refine ((List.mergeSort_perm _ _).map _).trans (.of_eq ?_)
  rw [hcut.ends_eq hw hnul, hcut.result]
  exact map_ofString_filter hall

theorem mem_ends_iff {dest : List String} :
    dest ∈ ends tree segs place ↔ ∃ route, Leads tree place segs route dest := by
  rw [ends, List.mem_map]
  constructor
  · rintro ⟨⟨route, dest⟩, hm, rfl⟩
    exact ⟨route, mem_routes_iff.mp hm⟩
  · rintro ⟨route, h⟩
    exact ⟨(route, dest), mem_routes_iff.mpr h, rfl⟩

theorem nodup_filter_ends_iff (f : List String → Bool) :
    ((ends tree segs place).filter f).Nodup ↔ ∀ dest route route', f dest = true →
      Leads tree place segs route dest → Leads tree place segs route' dest → route = route' := by
  rw [ends, List.filter_map, List.nodup_map_iff_inj_on ((nodup_routes tree place segs).filter _)]
  simp only [List.mem_filter, Function.comp_apply, Prod.forall, mem_routes_iff, Prod.mk.injEq]
  constructor
  · intro h dest route route' hf hr hr'
    exact (h route dest ⟨hr, hf⟩ route' dest ⟨hr', hf⟩ rfl).1
  · rintro h route dest ⟨hr, hf⟩ route' _ ⟨hr', -⟩ rfl
    exact ⟨h dest route route' hf hr hr', rfl⟩

theorem nodup_ends (hw : tree.WellFormed) (hwild : Text.hasWildcard s = true)
    (hnul : hasNul s = false) (hc : ∀ name, .literal name ∈ (ofString s).2 → ".." ∉ pathNames name)
    (hd : (ofString s).2.count .anyDepth ≤ 1) (current : List String) :
    (ends tree (segments s) (origin current s)).Nodup := by
  obtain ⟨start, rest, hcut⟩ := exists_cut hwild
  rw [hcut.result] at hc hd
  rw [hcut.ends_eq hw hnul]
  have hall (place : List String) : (ends tree (segments rest) place).Nodup := by
    rw [← List.filter_true (ends tree (segments rest) place), nodup_filter_ends_iff]
    exact fun dest route route' _ h h' => leads_unique hw h h' hc hd
  cases tree.locate current (ofString s).1 with
  | error err => exact List.nodup_nil
  | ok place =>
    obtain ⟨place, entry⟩ := place
    cases entry with
    | file data => exact List.nodup_nil
    | folder => exact hall place

end Glob

end BeanCatalog
