import BeanCatalog.Files.Path
import Mathlib.Data.List.Basic

namespace BeanCatalog

def Anchored (current names : List String) : Prop :=
  ∃ front back, front <+: current ∧ names = front ++ back ∧ ".." ∉ back

namespace Anchored

variable {current names : List String}

theorem dropLast (h : Anchored current names) : Anchored current names.dropLast := by
  obtain ⟨front, back, hf, rfl, hb⟩ := h
  rcases List.eq_nil_or_concat back with rfl | ⟨back, name, rfl⟩
  · refine ⟨front.dropLast, [], (List.dropLast_prefix front).trans hf, ?_, List.not_mem_nil⟩
    rw [List.append_nil, List.append_nil]
  · refine ⟨front, back, hf, ?_, fun hm => hb (by simp [hm])⟩
    rw [List.concat_eq_append, ← List.append_assoc, List.dropLast_concat]

theorem descend (h : Anchored current names) (name : String) :
    Anchored current (descend names name) := by
  unfold BeanCatalog.descend
  split
  · exact h.dropLast
  next hn =>
  obtain ⟨front, back, hf, rfl, hb⟩ := h
  refine ⟨front, back ++ [name], hf, List.append_assoc _ _ _, ?_⟩
  intro hm
  rcases List.mem_append.mp hm with hm | hm
  · exact hb hm
  · exact hn (List.mem_singleton.mp hm).symm

theorem foldl_descend (h : Anchored current names) (path : List String) :
    Anchored current (path.foldl BeanCatalog.descend names) := by
  induction path generalizing names with
  | nil => exact h
  | cons name path ih => exact ih (h.descend name)

theorem ofString (current : List String) (s : String) :
    Anchored current (AbsolutePath.ofString current s).names := by
  apply foldl_descend
  split
  · exact ⟨[], [], List.nil_prefix, rfl, List.not_mem_nil⟩
  · exact ⟨current, [], List.prefix_rfl, (List.append_nil _).symm, List.not_mem_nil⟩

end Anchored

theorem foldl_descend_append {place names : List String} (h : ".." ∉ names) :
    names.foldl descend place = place ++ names := by
  induction names generalizing place with
  | nil => simp
  | cons name names ih =>
    have hn : name ≠ ".." := fun he => h (he ▸ List.mem_cons_self)
    rw [List.foldl_cons, ih fun hm => h (List.mem_cons_of_mem _ hm), descend, if_neg hn]
    simp

def ClimbsFirst (n : Nat) (names : List String) : Prop :=
  ∃ back, names = List.replicate n ".." ++ back ∧ ".." ∉ back

theorem descendOpen_name {name : String} (h : name ≠ "..") (place : List String) :
    descendOpen place name = place ++ [name] :=
  if_pos h

theorem descendOpen_back {name : String} (h : name ≠ "..") (place : List String) :
    descendOpen (place ++ [name]) ".." = place := by
  have hstays : ¬ ((place ++ [name]).isEmpty || (place ++ [name]).getLast? == some "..") = true := by
    simp [h]
  rw [descendOpen, if_neg (by decide), if_neg hstays, List.dropLast_concat]

theorem descendOpen_climb (n : Nat) :
    descendOpen (List.replicate n "..") ".." = List.replicate (n + 1) ".." := by
  have hclimbs : ((List.replicate n "..").isEmpty ||
      (List.replicate n "..").getLast? == some "..") = true := by
    cases n with
    | zero => rfl
    | succ n => simp [List.getLast?_replicate]
  rw [descendOpen, if_neg (by decide), if_pos hclimbs, List.replicate_succ']

theorem ClimbsFirst.descendOpen {n : Nat} {names : List String} (h : ClimbsFirst n names)
    (name : String) : ∃ m, ClimbsFirst m (descendOpen names name) := by
  obtain ⟨back, rfl, hb⟩ := h
  by_cases hn : name = ".."
  · subst hn
    rcases List.eq_nil_or_concat back with rfl | ⟨back, last, rfl⟩
    · rw [List.append_nil, descendOpen_climb]
      exact ⟨n + 1, [], (List.append_nil _).symm, List.not_mem_nil⟩
    · rw [List.concat_eq_append] at hb ⊢
      have hlast : last ≠ ".." := fun he => hb (by simp [he])
      rw [← List.append_assoc, descendOpen_back hlast]
      exact ⟨n, back, rfl, fun hm => hb (List.mem_append_left _ hm)⟩
  · rw [descendOpen_name hn]
    refine ⟨n, back ++ [name], List.append_assoc _ _ _, ?_⟩
    intro hm
    rcases List.mem_append.mp hm with hm | hm
    · exact hb hm
    · exact hn (List.mem_singleton.mp hm).symm

theorem relativeNames_climbsFirst (s : String) : ∃ n, ClimbsFirst n (relativeNames s) := by
  have hall : ∀ (path names : List String) (n : Nat), ClimbsFirst n names →
      ∃ m, ClimbsFirst m (path.foldl descendOpen names) := by
    intro path
    induction path with
    | nil => exact fun names n h => ⟨n, h⟩
    | cons name path ih =>
      intro names n h
      obtain ⟨m, hm⟩ := h.descendOpen name
      exact ih _ m hm
  exact hall _ [] 0 ⟨[], rfl, List.not_mem_nil⟩

def climbs (names : List String) : Nat := (names.takeWhile (· == "..")).length

theorem ClimbsFirst.climbs {n : Nat} {names : List String} (h : ClimbsFirst n names) :
    climbs names = n := by
  obtain ⟨back, rfl, hb⟩ := h
  unfold BeanCatalog.climbs
  rw [List.takeWhile_append_of_pos (by simp)]
  cases back with
  | nil => simp
  | cons name back =>
    have hn : name ≠ ".." := fun he => hb (he ▸ List.mem_cons_self)
    simp [hn]

theorem beforeLastSlash_append (cs ds : List Char) :
    ∃ more, beforeLastSlash (cs ++ '/' :: ds) = some (cs ++ more) ∧
      (more = [] ∨ ∃ front, more = '/' :: front) := by
  induction cs with
  | nil =>
    rw [List.nil_append, beforeLastSlash]
    cases beforeLastSlash ds with
    | none => exact ⟨[], rfl, .inl rfl⟩
    | some front => exact ⟨'/' :: front, rfl, .inr ⟨front, rfl⟩⟩
  | cons c cs ih =>
    obtain ⟨more, hb, hm⟩ := ih
    refine ⟨more, ?_, hm⟩
    rw [List.cons_append, beforeLastSlash, hb]
    rfl

theorem applyRelativePath_append {path : String} {cs ds : List Char}
    (h : path.toList = cs ++ '/' :: ds) (relative : String) :
    ∃ rest, (applyRelativePath path relative).toList = cs ++ '/' :: rest := by
  obtain ⟨more, hb, hm⟩ := beforeLastSlash_append cs ds
  unfold applyRelativePath
  rw [h, hb]
  dsimp only
  split
  next hs =>
    rw [String.startsWith_string_iff] at hs
    obtain ⟨tail, ht⟩ := hs
    have ht : relative.toList = '/' :: tail := ht.symm
    rw [String.toList_append, String.toList_ofList, ht]
    rcases hm with rfl | ⟨front, rfl⟩
    · exact ⟨tail, by simp⟩
    · exact ⟨front ++ '/' :: tail, by simp⟩
  next =>
    rw [String.toList_append, String.toList_append, String.toList_ofList]
    rcases hm with rfl | ⟨front, rfl⟩
    · exact ⟨relative.toList, by simp⟩
    · exact ⟨front ++ '/' :: relative.toList, by simp⟩

open Text

theorem splitAny_append {ds : List Char} {c : Char} (hc : c ∈ ds) (cs rest : List Char) :
    splitAny ds (cs ++ c :: rest) = splitAny ds cs ++ splitAny ds rest := by
  induction cs with
  | nil =>
    change splitAny ds (c :: rest) = [[]] ++ splitAny ds rest
    rw [splitAny, if_pos hc]
    rfl
  | cons d cs ih =>
    rw [List.cons_append, splitAny, splitAny]
    split
    · rw [ih]
      rfl
    · rw [ih]
      cases h : splitAny ds cs with
      | nil => exact absurd h (splitAny_ne_nil ds cs)
      | cons run runs => rfl

theorem splitAny_of_forall_not_mem {ds cs : List Char} (h : ∀ c ∈ cs, c ∉ ds) : splitAny ds cs = [cs] := by
  induction cs with
  | nil => rfl
  | cons c cs ih =>
    rw [splitAny, if_neg (h c List.mem_cons_self), ih fun d hd => h d (List.mem_cons_of_mem c hd)]

theorem not_mem_of_mem_splitAny {ds cs run : List Char} (h : run ∈ splitAny ds cs) :
    ∀ c ∈ run, c ∉ ds := by
  induction cs generalizing run with
  | nil =>
    obtain rfl : run = [] := by simpa [splitAny] using h
    exact fun c hc => absurd hc List.not_mem_nil
  | cons d cs ih =>
    rw [splitAny] at h
    split at h
    · rcases List.mem_cons.mp h with rfl | h
      · exact fun c hc => absurd hc List.not_mem_nil
      · exact ih h
    next hd =>
    cases hs : splitAny ds cs with
    | nil => exact absurd hs (splitAny_ne_nil ds cs)
    | cons first runs =>
      rw [hs] at h ih
      rcases List.mem_cons.mp h with rfl | h
      · intro c hc
        rcases List.mem_cons.mp hc with rfl | hc
        · exact hd
        · exact ih List.mem_cons_self c hc
      · exact ih (List.mem_cons_of_mem first h)

theorem mem_splitAny_of_mem {ds cs : List Char} {c : Char} (hd : c ∉ ds) (hc : c ∈ cs) :
    ∃ run ∈ splitAny ds cs, c ∈ run := by
  induction cs with
  | nil => exact absurd hc List.not_mem_nil
  | cons d cs ih =>
    rw [splitAny]
    rcases List.mem_cons.mp hc with rfl | hc
    · rw [if_neg hd]
      cases splitAny ds cs with
      | nil => exact ⟨_, List.mem_cons_self, List.mem_cons_self⟩
      | cons run runs => exact ⟨_, List.mem_cons_self, List.mem_cons_self⟩
    obtain ⟨run, hrun, hm⟩ := ih hc
    split
    · exact ⟨run, List.mem_cons_of_mem _ hrun, hm⟩
    · cases hs : splitAny ds cs with
      | nil => exact absurd hs (splitAny_ne_nil ds cs)
      | cons first runs =>
        rw [hs] at hrun
        rcases List.mem_cons.mp hrun with rfl | hrun
        · exact ⟨_, List.mem_cons_self, List.mem_cons_of_mem d hm⟩
        · exact ⟨run, List.mem_cons_of_mem _ hrun, hm⟩

theorem subset_of_mem_splitAny {ds cs run : List Char} (h : run ∈ splitAny ds cs) : run ⊆ cs := by
  induction cs generalizing run with
  | nil =>
    obtain rfl : run = [] := by simpa [splitAny] using h
    exact List.nil_subset _
  | cons d cs ih =>
    rw [splitAny] at h
    split at h
    · rcases List.mem_cons.mp h with rfl | h
      · exact List.nil_subset _
      · exact List.subset_cons_of_subset d (ih h)
    · cases hs : splitAny ds cs with
      | nil => exact absurd hs (splitAny_ne_nil ds cs)
      | cons first runs =>
        rw [hs] at h ih
        rcases List.mem_cons.mp h with rfl | h
        · exact List.cons_subset_cons d (ih List.mem_cons_self)
        · exact List.subset_cons_of_subset d (ih (List.mem_cons_of_mem first h))

def slashRuns (s : String) : List String :=
  ((splitAny ['/'] s.toList).map String.ofList).filter (· ≠ "")

theorem pathNames_eq_filter (s : String) : pathNames s = (slashRuns s).filter (· ≠ ".") := by
  rw [slashRuns, List.filter_filter, pathNames]
  apply List.filter_congr
  intro name _
  simp only [ne_eq, Bool.decide_and, Bool.and_comm]

theorem slashRuns_append {s a b : String} (h : s.toList = a.toList ++ '/' :: b.toList) :
    slashRuns s = slashRuns a ++ slashRuns b := by
  unfold slashRuns
  rw [h, splitAny_append (List.mem_singleton_self '/'), List.map_append, List.filter_append]

theorem slashRuns_of_no_slash {name : String} (h : '/' ∉ name.toList) (hne : name ≠ "") :
    slashRuns name = [name] := by
  have hs : splitAny ['/'] name.toList = [name.toList] := by
    apply splitAny_of_forall_not_mem
    intro c hc hm
    rw [List.mem_singleton.mp hm] at hc
    exact h hc
  rw [slashRuns, hs]
  simp [hne]

theorem slash_not_mem_of_mem_slashRuns {s name : String} (h : name ∈ slashRuns s) :
    name ≠ "" ∧ '/' ∉ name.toList := by
  obtain ⟨hm, hne⟩ := List.mem_filter.mp h
  obtain ⟨run, hrun, rfl⟩ := List.mem_map.mp hm
  refine ⟨of_decide_eq_true hne, fun hc => ?_⟩
  rw [String.toList_ofList] at hc
  exact not_mem_of_mem_splitAny hrun '/' hc (List.mem_singleton_self '/')

theorem pathNames_append_slash {s a b : String} (h : s.toList = a.toList ++ '/' :: b.toList) :
    pathNames s = pathNames a ++ pathNames b := by
  rw [pathNames_eq_filter, slashRuns_append h, List.filter_append, ← pathNames_eq_filter,
    ← pathNames_eq_filter]

structure IsName (name : String) : Prop where
  ne_empty : name ≠ ""
  ne_dot : name ≠ "."
  no_slash : '/' ∉ name.toList

theorem isName_of_mem_pathNames {s name : String} (h : name ∈ pathNames s) : IsName name := by
  rw [pathNames_eq_filter] at h
  obtain ⟨hm, hd⟩ := List.mem_filter.mp h
  obtain ⟨hne, hslash⟩ := slash_not_mem_of_mem_slashRuns hm
  exact ⟨hne, of_decide_eq_true hd, hslash⟩

theorem slashRuns_intercalate {names : List String} (h : ∀ name ∈ names, IsName name) :
    slashRuns ("/".intercalate names) = names := by
  induction names with
  | nil => rfl
  | cons name names ih =>
    have hname := h name List.mem_cons_self
    have hrun := slashRuns_of_no_slash hname.no_slash hname.ne_empty
    have hnames := ih fun other hm => h other (List.mem_cons_of_mem name hm)
    cases names with
    | nil => rw [String.intercalate_singleton, hrun]
    | cons next names =>
      rw [String.intercalate_cons_cons]
      have hcut : (name ++ "/" ++ "/".intercalate (next :: names)).toList =
          name.toList ++ '/' :: ("/".intercalate (next :: names)).toList := by
        rw [String.toList_append, String.toList_append, List.append_assoc]
        rfl
      rw [slashRuns_append hcut, hrun, hnames]
      rfl

theorem pathNames_of_slashRuns {s : String} {names : List String}
    (h : ∀ name ∈ names, IsName name) (hs : slashRuns s = names) : pathNames s = names := by
  rw [pathNames_eq_filter, hs]
  exact List.filter_eq_self.mpr fun name hm => decide_eq_true (h name hm).ne_dot

theorem pathNames_of_isName {name : String} (h : IsName name) : pathNames name = [name] :=
  pathNames_of_slashRuns (by simpa using h) (slashRuns_of_no_slash h.no_slash h.ne_empty)

theorem pathNames_intercalate {names : List String} (h : ∀ name ∈ names, IsName name) :
    pathNames ("/".intercalate names) = names :=
  pathNames_of_slashRuns h (slashRuns_intercalate h)

theorem beforeLastSlash_none {cs : List Char} (h : '/' ∉ cs) : beforeLastSlash cs = none := by
  induction cs with
  | nil => rfl
  | cons c cs ih =>
    rw [beforeLastSlash, ih fun hm => h (List.mem_cons_of_mem c hm)]
    apply if_neg
    rintro rfl
    exact h List.mem_cons_self

theorem beforeLastSlash_last {cs last : List Char} (h : '/' ∉ last) :
    beforeLastSlash (cs ++ '/' :: last) = some cs := by
  induction cs with
  | nil =>
    rw [List.nil_append, beforeLastSlash, beforeLastSlash_none h]
    rfl
  | cons c cs ih => rw [List.cons_append, beforeLastSlash, ih]

theorem pathNames_slash {s t : String} (h : s.toList = '/' :: t.toList) :
    pathNames s = pathNames t := by
  have hs : s.toList = "".toList ++ '/' :: t.toList := h
  rw [pathNames_append_slash hs]
  rfl

def slashed (s : String) : String := if s.startsWith "/" then s else "/" ++ s

theorem slashed_eq (s : String) :
    ∃ rest, slashed s = "/" ++ rest ∧ pathNames rest = pathNames s := by
  unfold slashed
  split
  next hs =>
    rw [String.startsWith_string_iff] at hs
    obtain ⟨tail, ht⟩ := hs
    have hrest : s.toList = '/' :: (String.ofList tail).toList := by
      rw [String.toList_ofList]
      exact ht.symm
    refine ⟨String.ofList tail, ?_, (pathNames_slash hrest).symm⟩
    rw [← String.toList_inj, String.toList_append]
    exact hrest
  next => exact ⟨s, rfl, rfl⟩

theorem pathNames_append_slashed (front s : String) :
    pathNames (front ++ slashed s) = pathNames front ++ pathNames s := by
  obtain ⟨rest, hs, hrest⟩ := slashed_eq s
  have hcut : (front ++ slashed s).toList = front.toList ++ '/' :: rest.toList := by simp [hs]
  rw [pathNames_append_slash hcut, hrest]

theorem cut_cases (path : String) :
    '/' ∉ path.toList ∨ ∃ front last, path = front ++ "/" ++ last ∧ '/' ∉ last.toList := by
  by_cases hm : '/' ∈ path.toList.reverse
  · obtain ⟨last, front, hcut, hlast⟩ := List.eq_append_cons_of_mem hm
    have hpath : path.toList = front.reverse ++ '/' :: last.reverse := by
      rw [← List.reverse_reverse path.toList, hcut]
      simp
    refine .inr ⟨String.ofList front.reverse, String.ofList last.reverse, ?_, by simpa using hlast⟩
    rw [← String.toList_inj, hpath]
    simp
  · exact .inl fun h => hm (List.mem_reverse.mpr h)

theorem applyRelativePath_cut {front last : String} (h : '/' ∉ last.toList) (relative : String) :
    applyRelativePath (front ++ "/" ++ last) relative = front ++ slashed relative := by
  have hcut : (front ++ "/" ++ last).toList = front.toList ++ '/' :: last.toList := by simp
  rw [applyRelativePath, hcut, beforeLastSlash_last h, slashed]
  dsimp only
  rw [String.ofList_toList]
  split
  · rfl
  · exact String.append_assoc

theorem applyRelativePath_uncut {path : String} (h : '/' ∉ path.toList) (relative : String) :
    applyRelativePath path relative = relative := by
  rw [applyRelativePath, beforeLastSlash_none h]

theorem intercalate_concat {names : List String} (h : names ≠ []) (last : String) :
    "/".intercalate (names ++ [last]) = "/".intercalate names ++ "/" ++ last := by
  rw [String.intercalate_append_of_ne_nil h (by simp), String.intercalate_singleton]

theorem pathNames_applyRelativePath {names : List String} (h : ∀ name ∈ names, IsName name)
    (relative : String) :
    pathNames (applyRelativePath (renderRelative names) relative) =
      names.dropLast ++ pathNames relative := by
  rcases List.eq_nil_or_concat names with rfl | ⟨front, last, rfl⟩
  · rfl
  rw [List.concat_eq_append] at h ⊢
  have hlast : '/' ∉ last.toList := (h last (by simp)).no_slash
  have hfront : ∀ name ∈ front, IsName name := fun name hm => h name (by simp [hm])
  have hrender : renderRelative (front ++ [last]) = "/".intercalate (front ++ [last]) := by
    simp [renderRelative]
  rw [hrender, List.dropLast_concat]
  by_cases hne : front = []
  · rw [hne, List.nil_append, String.intercalate_singleton, applyRelativePath_uncut hlast]
    rfl
  · rw [intercalate_concat hne, applyRelativePath_cut hlast, pathNames_append_slashed,
      pathNames_intercalate hfront]

theorem foldl_descendOpen_climbsFirst {n : Nat} {names : List String} (h : ClimbsFirst n names) :
    names.foldl descendOpen [] = names := by
  obtain ⟨back, rfl, hb⟩ := h
  have hclimb : (List.replicate n "..").foldl descendOpen [] = List.replicate n ".." := by
    induction n with
    | zero => rfl
    | succ n ih =>
      rw [List.replicate_succ', List.foldl_append, ih, List.foldl_cons, descendOpen_climb,
        List.foldl_nil, List.replicate_succ']
  rw [List.foldl_append, hclimb]
  generalize List.replicate n ".." = place
  induction back generalizing place with
  | nil => simp
  | cons name back ih =>
    have hn : name ≠ ".." := fun he => hb (he ▸ List.mem_cons_self)
    rw [List.foldl_cons, descendOpen_name hn, ih (fun hm => hb (List.mem_cons_of_mem _ hm))]
    simp

theorem ClimbsFirst.dropLast {n : Nat} {names : List String} (h : ClimbsFirst n names) :
    ∃ m, ClimbsFirst m names.dropLast := by
  obtain ⟨back, rfl, hb⟩ := h
  rcases List.eq_nil_or_concat back with rfl | ⟨back, last, rfl⟩
  · refine ⟨n - 1, [], ?_, List.not_mem_nil⟩
    rw [List.append_nil, List.append_nil, List.dropLast_replicate]
  · rw [List.concat_eq_append] at hb ⊢
    refine ⟨n, back, ?_, fun hm => hb (List.mem_append_left _ hm)⟩
    rw [← List.append_assoc, List.dropLast_concat]

theorem relativeNames_applyRelativePath {n : Nat} {names : List String}
    (h : ∀ name ∈ names, IsName name) (hc : ClimbsFirst n names) (relative : String) :
    relativeNames (applyRelativePath (renderRelative names) relative) =
      (pathNames relative).foldl descendOpen names.dropLast := by
  obtain ⟨m, hm⟩ := hc.dropLast
  unfold relativeNames
  rw [pathNames_applyRelativePath h, List.foldl_append, foldl_descendOpen_climbsFirst hm]

end BeanCatalog
