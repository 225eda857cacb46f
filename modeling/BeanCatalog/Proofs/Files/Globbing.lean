import BeanCatalog.Proofs.Files.Rendering
import BeanCatalog.Proofs.Files.Routes
import BeanCatalog.Proofs.Resource.Faults
import Mathlib.Data.List.Forall2

namespace BeanCatalog

theorem endsWith_slash_iff {s : String} :
    s.endsWith "/" = true ↔ ∃ front, s = front ++ "/" := by
  rw [String.endsWith_eq_endsWith_toSlice, String.Slice.endsWith_string_iff]
  constructor
  · rintro ⟨front, hs⟩
    have hs : s.toList = front ++ ['/'] := by simpa using hs.symm
    refine ⟨String.ofList front, ?_⟩
    rw [← String.toList_inj, hs]
    simp
  · rintro ⟨front, rfl⟩
    exact ⟨front.toList, by simp⟩

theorem hasNul_append (a b : String) : hasNul (a ++ b) = (hasNul a || hasNul b) := by
  rw [hasNul, String.toList_append, List.any_append]
  rfl

theorem AbsolutePath.startsDouble_iff {cs : List Char} :
    startsDouble cs = true ↔ ∃ rest, cs = '/' :: '/' :: rest ∧ rest.head? ≠ some '/' := by
  unfold startsDouble
  split
  · simp
  next rest hrest =>
    refine iff_of_true rfl ⟨rest, rfl, fun hhead => ?_⟩
    obtain ⟨more, rfl⟩ := List.head?_eq_some_iff.mp hhead
    exact hrest more rfl
  next hthree htwo => exact iff_of_false nofun fun ⟨rest, hrest, _⟩ => htwo rest hrest

theorem AbsolutePath.startsDouble_append {cs ds : List Char}
    (h : ds.head? ≠ some '/' ∨ cs ≠ [] ∧ cs.getLast? ≠ some '/') :
    startsDouble (cs ++ ds) = startsDouble cs := by
  rw [Bool.eq_iff_iff, startsDouble_iff, startsDouble_iff]
  -- three characters decide
  rcases cs with _ | ⟨a, _ | ⟨b, _ | ⟨c, cs⟩⟩⟩
  · have hhead := h.resolve_right fun hr => hr.1 rfl
    simp only [List.nil_append]
    refine iff_of_false ?_ (by simp)
    rintro ⟨rest, rfl, -⟩
    exact hhead rfl
  · refine iff_of_false ?_ (by simp)
    rintro ⟨rest, hrest, -⟩
    obtain ⟨rfl, rfl⟩ := List.cons.inj hrest
    rcases h with h | ⟨-, h⟩
    · exact h rfl
    · exact h rfl
  · constructor
    · rintro ⟨rest, hrest, hhead⟩
      simp only [List.cons_append, List.nil_append, List.cons.injEq] at hrest
      obtain ⟨rfl, rfl, rfl⟩ := hrest
      exact ⟨[], rfl, nofun⟩
    · rintro ⟨rest, hrest, -⟩
      simp only [List.cons.injEq] at hrest
      obtain ⟨rfl, rfl, rfl⟩ := hrest
      refine ⟨ds, rfl, h.resolve_right ?_⟩
      rintro ⟨-, hlast⟩
      exact hlast rfl
  · simp

namespace Glob

variable {tree : FileTree} {current : List String} {path name : String}

theorem join_cases (path name : String) :
    path = "" ∧ join path name = name ∨
      (∃ front, path = front ++ "/" ∧ join path name = front ++ "/" ++ name) ∨
      path ≠ "" ∧ path.toList.getLast? ≠ some '/' ∧ join path name = path ++ "/" ++ name := by
  unfold join
  split
  next h =>
    by_cases he : path = ""
    · exact .inl ⟨he, by rw [he, String.empty_append]⟩
    · obtain ⟨front, rfl⟩ := endsWith_slash_iff.mp (h.resolve_left he)
      exact .inr (.inl ⟨front, rfl, rfl⟩)
  next h =>
    obtain ⟨he, hs⟩ := not_or.mp h
    refine .inr (.inr ⟨he, fun hlast => hs ?_, rfl⟩)
    obtain ⟨front, hfront⟩ := List.getLast?_eq_some_iff.mp hlast
    refine endsWith_slash_iff.mpr ⟨String.ofList front, ?_⟩
    rw [← String.toList_inj, hfront]
    simp

theorem pathNames_join (path name : String) :
    pathNames (join path name) = pathNames path ++ pathNames name := by
  have hcut (front : String) : pathNames (front ++ "/" ++ name) = pathNames front ++ pathNames name :=
    pathNames_append_slash (by simp)
  rcases join_cases path name with ⟨rfl, hj⟩ | ⟨front, rfl, hj⟩ | ⟨-, -, hj⟩
  · rw [hj]
    rfl
  · have hfront : pathNames (front ++ "/") = pathNames front ++ pathNames "" :=
      pathNames_append_slash (by simp)
    rw [hj, hcut, hfront]
    simp [pathNames, Text.splitAny]
  · rw [hj, hcut]

theorem hasNul_join (path name : String) : hasNul (join path name) = (hasNul path || hasNul name) := by
  have hslash : hasNul "/" = false := rfl
  rcases join_cases path name with ⟨rfl, hj⟩ | ⟨front, rfl, hj⟩ | ⟨-, -, hj⟩
  · rw [hj]
    rfl
  · rw [hj, hasNul_append]
  · rw [hj, hasNul_append, hasNul_append, hslash, Bool.or_false]

theorem startsDouble_join (h : name.toList.head? ≠ some '/') :
    AbsolutePath.startsDouble (join path name).toList = AbsolutePath.startsDouble path.toList := by
  rcases join_cases path name with ⟨rfl, hj⟩ | ⟨front, rfl, hj⟩ | ⟨he, hlast, hj⟩
  · rw [hj]
    exact @AbsolutePath.startsDouble_append [] name.toList (.inl h)
  · rw [hj, String.toList_append]
    exact AbsolutePath.startsDouble_append (.inl h)
  · rw [hj, String.append_assoc, String.toList_append]
    exact AbsolutePath.startsDouble_append
      (.inr ⟨fun hn => he (String.toList_eq_nil_iff.mp hn), hlast⟩)

theorem startsWith_slash_iff {s : String} :
    s.startsWith "/" = true ↔ s.toList.head? = some '/' := by
  rw [String.startsWith_string_iff]
  constructor
  · rintro ⟨rest, hs⟩
    rw [← hs]
    rfl
  · intro h
    obtain ⟨rest, hs⟩ := List.head?_eq_some_iff.mp h
    exact ⟨rest, hs.symm⟩

theorem startsWith_join (h : name.toList.head? ≠ some '/') :
    (join path name).startsWith "/" = path.startsWith "/" := by
  rw [Bool.eq_iff_iff, startsWith_slash_iff, startsWith_slash_iff]
  rcases join_cases path name with ⟨rfl, hj⟩ | ⟨front, rfl, hj⟩ | ⟨he, -, hj⟩
  · rw [hj]
    exact iff_of_false h nofun
  · rw [hj, String.toList_append, List.head?_append_of_ne_nil _ (by simp)]
  · have hne : path.toList ≠ [] := fun hn => he (String.toList_eq_nil_iff.mp hn)
    rw [hj, String.append_assoc, String.toList_append, List.head?_append_of_ne_nil _ hne]

theorem locate_walks {place : List String} {entry : FileEntry}
    (h : tree.locate current path = .ok (place, entry)) : hasNul path = false ∧
      tree.walk (if path.startsWith "/" then [] else current) (pathNames path) = .ok (place, entry) := by
  unfold FileTree.locate at h
  split at h
  next => cases h
  next hn => exact ⟨Bool.eq_false_iff.mpr hn, h⟩

theorem locate_ok {place : List String} {entry : FileEntry}
    (h : tree.locate current path = .ok (place, entry)) : tree.entry? place = some entry :=
  (FileTree.walk_ok (locate_walks h).2).2

theorem locate_join (hn : name.toList.head? ≠ some '/') (hnul : hasNul name = false) :
    tree.locate current (join path name) =
      match tree.locate current path with
      | .ok (place, _) => tree.walk place (pathNames name)
      | .error err => .error err := by
  unfold FileTree.locate
  rw [hasNul_join, hnul, Bool.or_false, startsWith_join hn, pathNames_join]
  cases hasNul path with
  | true => rfl
  | false => exact FileTree.walk_append _ _ _

structure Spells (tree : FileTree) (current : List String) (doubleRoot : Bool) (path : String)
    (place : List String) : Prop where
  leads : ∃ entry, tree.locate current path = .ok (place, entry)
  double : AbsolutePath.startsDouble path.toList = doubleRoot

variable {place dest : List String} {doubleRoot : Bool} {seg : Segment} {segs : List Segment}

namespace Spells

theorem locate (h : Spells tree current doubleRoot path place) {entry : FileEntry}
    (he : tree.entry? place = some entry) : tree.locate current path = .ok (place, entry) := by
  obtain ⟨found, hl⟩ := h.leads
  obtain rfl : found = entry := Option.some.inj ((locate_ok hl).symm.trans he)
  exact hl

theorem noNul (h : Spells tree current doubleRoot path place) : hasNul path = false := by
  obtain ⟨entry, hl⟩ := h.leads
  exact (locate_walks hl).1

theorem ofString (h : Spells tree current doubleRoot path place) :
    AbsolutePath.ofString current path = ⟨doubleRoot, place⟩ := by
  obtain ⟨entry, hl⟩ := h.leads
  rw [AbsolutePath.ofString, h.double, (FileTree.walk_ok (locate_walks hl).2).1]

theorem join (h : Spells tree current doubleRoot path place) {entry : FileEntry}
    (hn : name.toList.head? ≠ some '/') (hnul : hasNul name = false)
    (hw : tree.walk place (pathNames name) = .ok (dest, entry)) :
    Spells tree current doubleRoot (Glob.join path name) dest where
  leads := by
    obtain ⟨found, hl⟩ := h.leads
    refine ⟨entry, ?_⟩
    rw [locate_join hn hnul, hl]
    exact hw
  double := (startsDouble_join hn).trans h.double

end Spells

theorem hasNul_intercalate {names : List String} (h : ∀ name ∈ names, hasNul name = false) :
    hasNul ("/".intercalate names) = false := by
  induction names with
  | nil => rfl
  | cons name names ih =>
    have hname := h name List.mem_cons_self
    have hnames := ih fun other hm => h other (List.mem_cons_of_mem name hm)
    cases names with
    | nil => rwa [String.intercalate_singleton]
    | cons next names =>
      have hslash : hasNul "/" = false := rfl
      rw [String.intercalate_cons_cons, hasNul_append, hasNul_append, hname, hslash, hnames]
      rfl

theorem Spells.below (hw : tree.WellFormed) (h : Spells tree current doubleRoot path place)
    {names : List String} (he : (tree.entry? (place ++ names)).isSome = true) :
    Spells tree current doubleRoot (Glob.join path ("/".intercalate names))
      (names.foldl descend place) := by
  have hname (name : String) (hm : name ∈ names) : FileName name :=
    hw.fileName_of_entry? he (List.mem_append_right place hm)
  have hisName (name : String) (hm : name ∈ names) : IsName name := (hname name hm).toIsName
  have hclimb : ".." ∉ names := fun hm => (hname ".." hm).noClimb rfl
  obtain ⟨entry, hentry⟩ := Option.isSome_iff_exists.mp he
  rw [foldl_descend_append hclimb]
  apply h.join (AbsolutePath.head?_intercalate hisName)
  · exact hasNul_intercalate fun name hm => (hname name hm).noNul
  · rw [pathNames_intercalate hisName]
    exact hw.walk_of_entry? hentry

def Segment.Single : Segment → Prop
  | .literal name => '/' ∉ name.toList
  | _ => True

theorem pathNames_single (h : '/' ∉ name.toList) :
    pathNames name = if name = "" ∨ name = "." then [] else [name] := by
  split
  next hdot =>
    rcases hdot with rfl | rfl <;> rfl
  next hname =>
    obtain ⟨he, hd⟩ := not_or.mp hname
    exact pathNames_of_isName ⟨he, hd, h⟩

theorem walk_literal (hw : tree.WellFormed) (hf : tree.isFolder place = true)
    (hn : '/' ∉ name.toList)
    (he : (tree.entry? ((pathNames name).foldl descend place)).isSome = true) :
    hasNul name = false ∧ ∃ entry,
      tree.walk place (pathNames name) = .ok ((pathNames name).foldl descend place, entry) := by
  obtain ⟨entry, hentry⟩ := Option.isSome_iff_exists.mp he
  rw [pathNames_single hn] at he hentry ⊢
  split at hentry
  next hdot =>
    refine ⟨?_, entry, ?_⟩
    · rcases hdot with rfl | rfl <;> rfl
    · rw [if_pos hdot]
      simp only [List.foldl_nil] at hentry ⊢
      rw [FileTree.walk, hentry]
  next hname =>
    rw [if_neg hname] at he ⊢
    obtain ⟨hnul, hshort⟩ := hw.name_of_descend he
    refine ⟨hnul, entry, ?_⟩
    rw [hw.walk_folder hf hshort]
    simp only [List.foldl_cons, List.foldl_nil] at hentry ⊢
    rw [FileTree.walk, hentry]

theorem locate_nul (h : hasNul path = true) : tree.locate current path = .error .nulInPath :=
  if_pos h

theorem walk_ne_nul (names : List String) : tree.walk place names ≠ .error .nulInPath := by
  have hok {found : List String × FileEntry} :
      (.ok found : Except FileError (List String × FileEntry)) ≠ .error .nulInPath := fun h => by cases h
  have hother {f : FileError} (hf : f ≠ .nulInPath) :
      (.error f : Except FileError (List String × FileEntry)) ≠ .error .nulInPath :=
    fun h => hf (Except.error.inj h)
  induction names generalizing place with
  | nil =>
    rw [FileTree.walk]
    cases tree.entry? place with
    | none => exact hother (by decide)
    | some entry => exact hok
  | cons name names ih =>
    rw [FileTree.walk]
    cases tree.entry? place with
    | none => exact hother (by decide)
    | some entry => cases entry with
      | file data => exact hother (by decide)
      | folder =>
        dsimp only
        split
        · exact hother (by decide)
        · exact ih

theorem folder?_nowhere (hp : hasNul path = false)
    (h : ∀ place, tree.locate current path ≠ .ok (place, .folder)) :
    folder? tree current path = .ok none := by
  unfold folder?
  split
  next place hl => exact absurd hl (h place)
  next hl =>
    unfold FileTree.locate at hl
    rw [if_neg (Bool.eq_false_iff.mp hp)] at hl
    exact absurd hl (walk_ne_nul _)
  next => rfl

theorem locate_literal (hn : '/' ∉ name.toList) :
    tree.locate current (if name = "" then path else join path name) =
      match tree.locate current path with
      | .ok (place, _) =>
        if hasNul name then .error .nulInPath else tree.walk place (pathNames name)
      | .error err => if hasNul name then .error .nulInPath else .error err := by
  split
  next he =>
    subst he
    cases hl : tree.locate current path with
    | error err => rfl
    | ok found =>
      have hwalk : tree.walk found.1 [] = .ok (found.1, found.2) := by
        rw [FileTree.walk, locate_ok hl]
      exact hwalk.symm
  next he =>
    have hhead : name.toList.head? ≠ some '/' := fun hc => hn (List.mem_of_head? hc)
    cases hnul : hasNul name with
    | true =>
      rw [locate_nul (by rw [hasNul_join, hnul, Bool.or_true])]
      cases tree.locate current path <;> rfl
    | false => exact locate_join hhead hnul

theorem expand_nowhere (hs : seg.Single) (hp : hasNul path = false) (last : Bool)
    (h : ∀ place, tree.locate current path ≠ .ok (place, .folder)) :
    expand tree current last path seg = .ok [] := by
  cases seg with
  | literal name =>
    simp only [expand, locate_literal hs]
    cases hl : tree.locate current path with
    | error err => cases hasNul name <;> rfl
    | ok found =>
      obtain ⟨place, entry⟩ := found
      have hentry := locate_ok hl
      cases entry with
      | folder => exact absurd hl (h place)
      | file data =>
        cases hasNul name with
        | true => rfl
        | false =>
          simp only [Bool.false_eq_true, if_false, pathNames_single hs]
          by_cases hdot : name = "" ∨ name = "."
          · simp only [hdot, if_true, FileTree.walk, hentry]
            rcases hdot with rfl | rfl <;> rfl
          · simp only [hdot, if_false, FileTree.walk, hentry]
            rfl
  | pattern s =>
    simp only [expand, folder?_nowhere hp h]
    rfl
  | anyDepth =>
    simp only [expand, folder?_nowhere hp h]
    rfl

theorem expand_literal (hw : tree.WellFormed) (hl : tree.locate current path = .ok (place, .folder))
    (hn : '/' ∉ name.toList) (last : Bool) :
    expand tree current last path (.literal name) =
      .ok (if (tree.entry? ((pathNames name).foldl descend place)).isSome then [join path name]
        else []) := by
  have hf := hw.entry?_folder_iff.mp (locate_ok hl)
  simp only [expand, locate_literal hn, hl]
  by_cases he : (tree.entry? ((pathNames name).foldl descend place)).isSome = true
  · obtain ⟨hnul, entry, hwalk⟩ := walk_literal hw hf hn he
    simp only [hnul, Bool.false_eq_true, if_false, hwalk, he, if_true]
    cases entry with
    | folder => rfl
    | file data =>
      -- An empty name and a dot stay in the folder, so they lead to no file.
      have hname : ¬ (name = "" ∨ name = ".") := by
        intro hdot
        rw [pathNames_single hn, if_pos hdot] at hwalk
        have hentry := (FileTree.walk_ok hwalk).2.symm.trans (locate_ok hl)
        cases hentry
      simp [not_or.mp hname]
  · simp only [he]
    cases hnul : hasNul name with
    | true => rfl
    | false =>
      simp only [Bool.false_eq_true, if_false]
      cases hwalk : tree.walk place (pathNames name) with
      | error err => rfl
      | ok found =>
        obtain ⟨hdest, hentry⟩ := FileTree.walk_ok hwalk
        rw [← hdest, hentry] at he
        exact absurd rfl he

theorem expand_spells (hw : tree.WellFormed) (hs : seg.Single) (last : Bool)
    (h : Spells tree current doubleRoot path place) (hf : tree.isFolder place = true) :
    ∃ paths, expand tree current last path seg = .ok paths ∧
      List.Forall₂ (Spells tree current doubleRoot) paths
        ((stops tree place last seg).map fun names => names.foldl descend place) := by
  have hl := h.locate (hw.entry?_folder_iff.mpr hf)
  have hfolder : folder? tree current path = .ok (some place) := by
    rw [folder?, hl]
  cases seg with
  | literal name =>
    rw [expand_literal hw hl hs last]
    refine ⟨_, rfl, ?_⟩
    rw [stops]
    split
    next he =>
      obtain ⟨hnul, entry, hwalk⟩ := walk_literal hw hf hs he
      exact .cons (h.join (fun hc => hs (List.mem_of_head? hc)) hnul hwalk) .nil
    next => exact .nil
  | pattern s =>
    simp only [expand, hfolder]
    refine ⟨_, rfl, ?_⟩
    simp only [stops, List.forall₂_map_left_iff, List.forall₂_map_right_iff, List.forall₂_same,
      Option.map_some, Option.getD_some]
    intro name hm
    have he := FileTree.mem_children_iff.mp (List.mem_of_mem_filter hm)
    have hbelow := h.below hw he
    rwa [String.intercalate_singleton] at hbelow
  | anyDepth =>
    simp only [expand, hfolder]
    refine ⟨_, rfl, ?_⟩
    simp only [stops, List.map_cons, List.forall₂_cons, List.forall₂_map_left_iff,
      List.forall₂_map_right_iff, List.forall₂_same]
    constructor
    · refine @Spells.below _ _ _ _ _ hw h [] ?_
      rw [List.append_nil, FileTree.entry?_isSome_iff]
      exact .inr hf
    · intro names hm
      exact h.below hw (FileTree.mem_below_iff.mp (List.mem_of_mem_filter hm)).2

def nexts (tree : FileTree) (last : Bool) (seg : Segment) (place : List String) : List (List String) :=
  if tree.isFolder place then
    (stops tree place last seg).map fun names => names.foldl descend place
  else []

theorem expand_nexts (hw : tree.WellFormed) (hs : seg.Single) (last : Bool)
    (h : Spells tree current doubleRoot path place) :
    ∃ paths, expand tree current last path seg = .ok paths ∧
      List.Forall₂ (Spells tree current doubleRoot) paths (nexts tree last seg place) := by
  rw [nexts]
  by_cases hf : tree.isFolder place = true
  · rw [if_pos hf]
    exact expand_spells hw hs last h hf
  · rw [if_neg hf]
    refine ⟨[], expand_nowhere hs h.noNul last fun other hl => hf ?_, .nil⟩
    obtain ⟨entry, hentry⟩ := h.leads
    cases hentry.symm.trans hl
    exact hw.entry?_folder_iff.mp (locate_ok hl)

theorem mapM_spells {f : String → Except FileError (List String)}
    {g : List String → List (List String)} {paths : List String} {places : List (List String)}
    (h : List.Forall₂ (Spells tree current doubleRoot) paths places)
    (hf : ∀ path place, Spells tree current doubleRoot path place →
      ∃ found, f path = .ok found ∧
        List.Forall₂ (Spells tree current doubleRoot) found (g place)) :
    ∃ founds, paths.mapM f = .ok founds ∧
      List.Forall₂ (Spells tree current doubleRoot) founds.flatten (places.flatMap g) := by
  induction h with
  | nil => exact ⟨[], rfl, .nil⟩
  | @cons path place paths places hpath _ ih =>
    obtain ⟨found, hfound, hspells⟩ := hf path place hpath
    obtain ⟨founds, hfounds, hrest⟩ := ih
    refine ⟨found :: founds, ?_, List.rel_append hspells hrest⟩
    rw [List.mapM_cons, hfound, hfounds]
    rfl

def ends (tree : FileTree) (segs : List Segment) (place : List String) : List (List String) :=
  (routes tree place segs).map (·.2)

theorem ends_cons (tree : FileTree) (seg : Segment) (segs : List Segment) (place : List String) :
    ends tree (seg :: segs) place =
      (nexts tree segs.isEmpty seg place).flatMap (ends tree segs) := by
  rw [ends, routes, nexts]
  split
  · rw [List.map_flatMap, List.flatMap_map]
    simp only [List.map_map]
    rfl
  · rfl

theorem expandAll_spells (hw : tree.WellFormed) (hs : ∀ seg ∈ segs, seg.Single)
    {paths : List String} {places : List (List String)}
    (h : List.Forall₂ (Spells tree current doubleRoot) paths places) :
    ∃ found, expandAll tree current paths segs = .ok found ∧
      List.Forall₂ (Spells tree current doubleRoot) found (places.flatMap (ends tree segs)) := by
  induction segs generalizing paths places with
  | nil =>
    have hends : places.flatMap (ends tree []) = places := List.flatMap_singleton' places
    exact ⟨paths, rfl, hends.symm ▸ h⟩
  | cons seg segs ih =>
    -- one step leads from all paths to paths in step with the next places, in the same order
    have hseg := hs seg List.mem_cons_self
    obtain ⟨founds, hfounds, hnext⟩ :=
      mapM_spells h fun path place hp => expand_nexts hw hseg segs.isEmpty hp
    obtain ⟨found, hfound, hall⟩ := ih (fun other hm => hs other (List.mem_cons_of_mem _ hm)) hnext
    refine ⟨found, ?_, ?_⟩
    · rw [expandAll, hfounds]
      exact hfound
    · have hends : ends tree (seg :: segs) =
          fun place => (nexts tree segs.isEmpty seg place).flatMap (ends tree segs) :=
        funext (ends_cons tree seg segs)
      rwa [List.flatMap_assoc, ← hends] at hall

end Glob

end BeanCatalog
