import BeanCatalog.Proofs.Files.Paths

namespace BeanCatalog

theorem mem_foldl_descend {place path : List String} {name : String}
    (h : name ∈ path.foldl descend place) : name ∈ place ∨ name ∈ path ∧ name ≠ ".." := by
  induction path generalizing place with
  | nil => exact .inl h
  | cons first path ih =>
    rw [List.foldl_cons] at h
    rcases ih h with hm | ⟨hm, hn⟩
    · unfold descend at hm
      split at hm
      · exact .inl (List.dropLast_subset _ hm)
      next hfirst =>
      rcases List.mem_append.mp hm with hm | hm
      · exact .inl hm
      · rw [List.mem_singleton.mp hm]
        exact .inr ⟨List.mem_cons_self, hfirst⟩
    · exact .inr ⟨List.mem_cons_of_mem first hm, hn⟩

theorem mem_foldl_descendOpen {place path : List String} {name : String}
    (h : name ∈ path.foldl descendOpen place) : name ∈ place ∨ name ∈ path := by
  induction path generalizing place with
  | nil => exact .inl h
  | cons first path ih =>
    rw [List.foldl_cons] at h
    rcases ih h with hm | hm
    · by_cases hfirst : first = ".."
      · subst hfirst
        unfold descendOpen at hm
        rw [if_neg (by decide)] at hm
        split at hm
        · rcases List.mem_append.mp hm with hm | hm
          · exact .inl hm
          · rw [List.mem_singleton.mp hm]
            exact .inr List.mem_cons_self
        · exact .inl (List.dropLast_subset _ hm)
      · rw [descendOpen_name hfirst] at hm
        rcases List.mem_append.mp hm with hm | hm
        · exact .inl hm
        · rw [List.mem_singleton.mp hm]
          exact .inr List.mem_cons_self
    · exact .inr (List.mem_cons_of_mem first hm)

structure RelativeNormal (names : List String) : Prop where
  isName : ∀ name ∈ names, IsName name
  climbsFirst : ∃ n, ClimbsFirst n names

theorem RelativeNormal.relativeNames (s : String) : RelativeNormal (relativeNames s) where
  isName name hm := by
    rcases mem_foldl_descendOpen hm with hm | hm
    · exact absurd hm List.not_mem_nil
    · exact isName_of_mem_pathNames hm
  climbsFirst := relativeNames_climbsFirst s

theorem RelativeNormal.pathNames_render {names : List String} (h : RelativeNormal names) :
    pathNames (renderRelative names) = names := by
  unfold renderRelative
  split
  next hn =>
    rw [List.isEmpty_iff.mp hn]
    rfl
  next => exact pathNames_intercalate h.isName

theorem RelativeNormal.render_ne_empty {names : List String} (h : RelativeNormal names) :
    renderRelative names ≠ "" := by
  intro he
  have hnames := h.pathNames_render
  rw [he] at hnames
  rw [← hnames] at he
  exact absurd he (by decide)

theorem RelativeNormal.relativeNames_render {names : List String} (h : RelativeNormal names) :
    BeanCatalog.relativeNames (renderRelative names) = names := by
  obtain ⟨n, hn⟩ := h.climbsFirst
  rw [BeanCatalog.relativeNames, h.pathNames_render, foldl_descendOpen_climbsFirst hn]

namespace AbsolutePath

structure Normal (p : AbsolutePath) : Prop where
  isName : ∀ name ∈ p.names, IsName name
  noClimb : ".." ∉ p.names

theorem Normal.foldl_descend {p : AbsolutePath} (h : p.Normal) (doubleRoot : Bool) (s : String) :
    Normal ⟨doubleRoot, (pathNames s).foldl descend p.names⟩ where
  isName name hm := by
    rcases mem_foldl_descend hm with hm | ⟨hm, -⟩
    · exact h.isName name hm
    · exact isName_of_mem_pathNames hm
  noClimb hm := by
    rcases mem_foldl_descend hm with hm | ⟨-, hn⟩
    · exact h.noClimb hm
    · exact hn rfl

theorem Normal.dropLast {p : AbsolutePath} (h : p.Normal) : Normal ⟨p.doubleRoot, p.names.dropLast⟩ where
  isName name hm := h.isName name (List.dropLast_subset _ hm)
  noClimb hm := h.noClimb (List.dropLast_subset _ hm)

theorem Normal.sibling {p : AbsolutePath} (h : p.Normal) (relative : String) :
    (p.sibling relative).Normal :=
  h.dropLast.foldl_descend p.doubleRoot relative

theorem normal_root : Normal ⟨false, []⟩ where
  isName _ hm := absurd hm List.not_mem_nil
  noClimb := List.not_mem_nil

theorem normal_ofString {current : List String} (h : Normal ⟨false, current⟩) (s : String) :
    (ofString current s).Normal := by
  unfold ofString
  dsimp only
  split
  · exact normal_root.foldl_descend _ s
  · exact h.foldl_descend _ s

/-- The slashes that a path begins with. -/
def root (doubleRoot : Bool) : String := if doubleRoot then "//" else "/"

theorem render_eq (p : AbsolutePath) : p.render = root p.doubleRoot ++ "/".intercalate p.names := rfl

theorem startsWith_root (doubleRoot : Bool) (s : String) : (root doubleRoot ++ s).startsWith "/" = true := by
  rw [String.startsWith_string_iff, String.toList_append]
  cases doubleRoot with
  | true => exact ⟨'/' :: s.toList, rfl⟩
  | false => exact ⟨s.toList, rfl⟩

theorem slashRuns_root (doubleRoot : Bool) (s : String) :
    slashRuns (root doubleRoot ++ s) = slashRuns s := by
  have hone (t : String) : slashRuns ("/" ++ t) = slashRuns t :=
    slashRuns_append (a := "") (by rw [String.toList_append]; rfl)
  cases doubleRoot with
  | false => exact hone s
  | true =>
    have hroot : root true = "/" ++ "/" := rfl
    have htwo : root true ++ s = "/" ++ ("/" ++ s) := by rw [hroot, String.append_assoc]
    rw [htwo, hone, hone]

theorem startsDouble_root {s : String} (h : s.toList.head? ≠ some '/') (doubleRoot : Bool) :
    startsDouble (root doubleRoot ++ s).toList = doubleRoot := by
  rw [String.toList_append]
  cases hs : s.toList with
  | nil => cases doubleRoot <;> rfl
  | cons c cs =>
    have hc : c ≠ '/' := by
      rintro rfl
      exact h (by rw [hs]; rfl)
    cases doubleRoot with
    | true =>
      change startsDouble ('/' :: '/' :: c :: cs) = true
      unfold startsDouble
      split <;> simp_all
    | false =>
      change startsDouble ('/' :: c :: cs) = false
      unfold startsDouble
      split <;> simp_all

theorem head?_intercalate {names : List String} (h : ∀ name ∈ names, IsName name) :
    ("/".intercalate names).toList.head? ≠ some '/' := by
  cases names with
  | nil => exact nofun
  | cons name names =>
    have hname := h name List.mem_cons_self
    have hhead : name.toList.head? ≠ some '/' := fun hc => hname.no_slash (List.mem_of_head? hc)
    have hne : name.toList ≠ [] := fun he => hname.ne_empty (String.toList_eq_nil_iff.mp he)
    cases names with
    | nil => rwa [String.intercalate_singleton]
    | cons next names =>
      rw [String.intercalate_cons_cons, String.toList_append, String.toList_append,
        List.append_assoc, List.head?_append_of_ne_nil _ hne]
      exact hhead

variable {p : AbsolutePath}

theorem ofString_root {s : String} (h : s.toList.head? ≠ some '/') (current : List String)
    (doubleRoot : Bool) :
    ofString current (root doubleRoot ++ s) = ⟨doubleRoot, (pathNames s).foldl descend []⟩ := by
  have hnames : pathNames (root doubleRoot ++ s) = pathNames s := by
    rw [pathNames_eq_filter, slashRuns_root, ← pathNames_eq_filter]
  unfold ofString
  rw [startsWith_root, if_pos rfl, startsDouble_root h, hnames]

theorem ofString_render (h : p.Normal) (current : List String) : ofString current p.render = p := by
  rw [render_eq, ofString_root (head?_intercalate h.isName), pathNames_intercalate h.isName,
    foldl_descend_append h.noClimb]
  rfl

theorem slashRuns_render (h : p.Normal) : slashRuns p.render = p.names := by
  rw [render_eq, slashRuns_root, slashRuns_intercalate h.isName]

theorem render_concat {doubleRoot : Bool} {front : List String} (h : front ≠ []) (last : String) :
    render ⟨doubleRoot, front ++ [last]⟩ = render ⟨doubleRoot, front⟩ ++ "/" ++ last := by
  rw [render_eq, render_eq, intercalate_concat h, ← String.append_assoc, ← String.append_assoc]

theorem ofString_sibling (h : p.Normal) (hf : p.names.dropLast ≠ []) (current : List String)
    (relative : String) : ofString current (applyRelativePath p.render relative) = p.sibling relative := by
  obtain ⟨doubleRoot, names⟩ := p
  rcases List.eq_nil_or_concat names with rfl | ⟨front, last, rfl⟩
  · exact absurd rfl hf
  rw [List.concat_eq_append] at h hf ⊢
  rw [List.dropLast_concat] at hf
  have hlast : '/' ∉ last.toList := (h.isName last (by simp)).no_slash
  have hfront : ∀ name ∈ front, IsName name := fun name hm => h.isName name (by simp [hm])
  have hclimb : ".." ∉ front := fun hm => h.noClimb (by simp [hm])
  have hhead : ("/".intercalate front ++ slashed relative).toList.head? ≠ some '/' := by
    have hne : ("/".intercalate front).toList ≠ [] := by
      intro he
      have hruns := slashRuns_intercalate hfront
      rw [String.toList_eq_nil_iff.mp he] at hruns
      exact hf hruns.symm
    rw [String.toList_append, List.head?_append_of_ne_nil _ hne]
    exact head?_intercalate hfront
  rw [render_concat hf, applyRelativePath_cut hlast, render_eq, String.append_assoc,
    ofString_root hhead, pathNames_append_slashed, pathNames_intercalate hfront, List.foldl_append,
    foldl_descend_append hclimb]
  simp [sibling]

end AbsolutePath

end BeanCatalog
