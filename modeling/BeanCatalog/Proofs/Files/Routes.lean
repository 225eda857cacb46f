import BeanCatalog.Files.Glob
import BeanCatalog.Proofs.Files.Places
import Mathlib.Data.List.Flatten
import Mathlib.Data.List.Nodup

namespace BeanCatalog.Glob

def segments (s : String) : List Segment :=
  let names := slashRuns s
  let names := if s.toList.getLast? = some '/' then names ++ [""] else names
  names.map Segment.ofString

/-- The names that a segment may stand for at a place. A name without wildcards stands for itself,
dots included; the others stand for names in the tree, hidden ones only where a dot is written. All
but the last have to lead to folders. -/
inductive Stands (tree : FileTree) (place : List String) (last : Bool) :
    Segment → List String → Prop
  | literal {name : String}
      (he : (tree.entry? ((pathNames name).foldl descend place)).isSome = true) :
      Stands tree place last (.literal name) (pathNames name)
  | pattern {s name : String} (hm : Text.matchesPattern s name = true)
      (hh : isHidden s = true ∨ isHidden name = false)
      (he : (tree.entry? (place ++ [name])).isSome = true)
      (hl : last = true ∨ tree.isFolder (place ++ [name]) = true) :
      Stands tree place last (.pattern s) [name]
  | anyDepth {names : List String} (hh : ∀ name ∈ names, isHidden name = false)
      (he : (tree.entry? (place ++ names)).isSome = true)
      (hl : last = true ∨ tree.isFolder (place ++ names) = true) :
      Stands tree place last .anyDepth names

/-- A route through the folders of a tree, with the place that it leads to. -/
inductive Leads (tree : FileTree) :
    List String → List Segment → List (List String) → List String → Prop
  | here (place : List String) : Leads tree place [] [] place
  | step {place names dest : List String} {seg : Segment} {segs : List Segment}
      {route : List (List String)} (hf : tree.isFolder place = true)
      (hs : Stands tree place segs.isEmpty seg names)
      (h : Leads tree (names.foldl descend place) segs route dest) :
      Leads tree place (seg :: segs) (names :: route) dest

section

variable (tree : FileTree)

def stops (place : List String) (last : Bool) : Segment → List (List String)
  | .literal name =>
    if (tree.entry? ((pathNames name).foldl descend place)).isSome then [pathNames name] else []
  | .pattern s =>
    let names := (tree.children place).filter fun name =>
      (last || tree.isFolder (place ++ [name])) && (isHidden s || !isHidden name) &&
        Text.matchesPattern s name
    names.map fun name => [name]
  | .anyDepth => [] :: (tree.below place).filter fun names =>
      (last || tree.isFolder (place ++ names)) && !names.any isHidden

def routes (place : List String) : List Segment → List (List (List String) × List String)
  | [] => [([], place)]
  | seg :: segs =>
    if tree.isFolder place then
      (stops tree place segs.isEmpty seg).flatMap fun names =>
        (routes (names.foldl descend place) segs).map fun (route, dest) => (names :: route, dest)
    else []

end

variable {tree : FileTree} {place dest names : List String} {last : Bool} {seg : Segment}
  {segs : List Segment} {route : List (List String)}

theorem mem_stops_iff (hf : tree.isFolder place = true) :
    names ∈ stops tree place last seg ↔ Stands tree place last seg names := by
  cases seg with
  | literal name =>
    constructor
    · intro h
      rw [stops, List.mem_ite_nil_right, List.mem_singleton] at h
      obtain ⟨he, rfl⟩ := h
      exact .literal he
    · rintro ⟨he⟩
      rw [stops, if_pos he]
      exact List.mem_singleton_self _
  | pattern s =>
    simp only [stops, List.mem_map, List.mem_filter, FileTree.mem_children_iff, Bool.and_eq_true,
      Bool.or_eq_true, Bool.not_eq_true']
    constructor
    · rintro ⟨name, ⟨he, ⟨hl, hh⟩, hm⟩, rfl⟩
      exact .pattern hm hh he hl
    · rintro (_ | @⟨_, name, hm, hh, he, hl⟩)
      exact ⟨name, ⟨he, ⟨hl, hh⟩, hm⟩, rfl⟩
  | anyDepth =>
    simp only [stops, List.mem_cons, List.mem_filter, FileTree.mem_below_iff, Bool.and_eq_true,
      Bool.or_eq_true, Bool.not_eq_true', List.any_eq_false, Bool.not_eq_true]
    constructor
    · rintro (rfl | ⟨⟨-, he⟩, hl, hh⟩)
      · have he : (tree.entry? (place ++ [])).isSome = true := by
          rw [List.append_nil]
          exact FileTree.entry?_isSome_iff.mpr (.inr hf)
        have hl : tree.isFolder (place ++ []) = true := by rwa [List.append_nil]
        exact .anyDepth (fun name hm => absurd hm List.not_mem_nil) he (.inr hl)
      · exact .anyDepth hh he hl
    · rintro (_ | _ | ⟨hh, he, hl⟩)
      by_cases hn : names = []
      · exact .inl hn
      · exact .inr ⟨⟨hn, he⟩, hl, hh⟩

theorem mem_routes_iff :
    (route, dest) ∈ routes tree place segs ↔ Leads tree place segs route dest := by
  induction segs generalizing place route with
  | nil =>
    rw [routes, List.mem_singleton, Prod.mk.injEq]
    constructor
    · rintro ⟨rfl, rfl⟩
      exact .here _
    · rintro ⟨⟩
      exact ⟨rfl, rfl⟩
  | cons seg segs ih =>
    rw [routes, List.mem_ite_nil_right, List.mem_flatMap]
    constructor
    · rintro ⟨hf, names, hnames, h⟩
      obtain ⟨⟨rest, dest⟩, hrest, he⟩ := List.mem_map.mp h
      obtain ⟨rfl, rfl⟩ := Prod.mk.inj he
      exact .step hf ((mem_stops_iff hf).mp hnames) (ih.mp hrest)
    · rintro (_ | @⟨_, names, _, _, _, rest, hf, hs, hrest⟩)
      refine ⟨hf, names, (mem_stops_iff hf).mpr hs, List.mem_map.mpr ⟨(rest, dest), ?_, rfl⟩⟩
      exact ih.mpr hrest

theorem nodup_stops (tree : FileTree) (place : List String) (last : Bool) (seg : Segment) :
    (stops tree place last seg).Nodup := by
  cases seg with
  | literal name =>
    rw [stops]
    split
    · exact List.nodup_singleton _
    · exact List.nodup_nil
  | pattern s =>
    refine ((tree.nodup_children place).filter _).map ?_
    exact fun _ _ h => List.singleton_inj.mp h
  | anyDepth =>
    refine List.nodup_cons.mpr ⟨fun hm => ?_, (tree.nodup_below place).filter _⟩
    exact (FileTree.mem_below_iff.mp (List.mem_of_mem_filter hm)).1 rfl

theorem nodup_routes (tree : FileTree) (place : List String) (segs : List Segment) :
    (routes tree place segs).Nodup := by
  induction segs generalizing place with
  | nil => exact List.nodup_singleton _
  | cons seg segs ih =>
    rw [routes]
    split
    · rw [List.nodup_flatMap]
      constructor
      · intro names _
        refine (ih _).map fun r r' h => ?_
        simpa [Prod.ext_iff] using h
      · refine (nodup_stops tree place segs.isEmpty seg).imp fun hne => List.disjoint_left.mpr ?_
        rintro r hr hr'
        obtain ⟨_, _, rfl⟩ := List.mem_map.mp hr
        obtain ⟨_, _, he⟩ := List.mem_map.mp hr'
        exact hne (List.cons.inj (Prod.mk.inj he).1).1.symm
    · exact List.nodup_nil

theorem Leads.eq_foldl (h : Leads tree place segs route dest) :
    dest = route.flatten.foldl descend place := by
  induction h with
  | here => rfl
  | step _ _ _ ih => rw [ih, List.flatten_cons, List.foldl_append]

theorem Stands.climb_not_mem (hw : tree.WellFormed) (h : Stands tree place last seg names)
    (hc : ∀ name, seg = .literal name → ".." ∉ pathNames name) : ".." ∉ names := by
  cases h with
  | literal => exact hc _ rfl
  | pattern _ _ he | anyDepth _ he =>
    intro hm
    exact (hw.fileName_of_entry? he (List.mem_append_right place hm)).noClimb rfl

theorem Leads.climb_not_mem (hw : tree.WellFormed) (h : Leads tree place segs route dest)
    (hc : ∀ name, .literal name ∈ segs → ".." ∉ pathNames name) : ".." ∉ route.flatten := by
  induction h with
  | here => exact List.not_mem_nil
  | step _ hs _ ih =>
    rw [List.flatten_cons, List.mem_append, not_or]
    constructor
    · exact hs.climb_not_mem hw fun name he => hc name (he ▸ List.mem_cons_self)
    · exact ih fun name hm => hc name (List.mem_cons_of_mem _ hm)

theorem Stands.length_eq {place' names' : List String} {last' : Bool}
    (h : Stands tree place last seg names) (h' : Stands tree place' last' seg names')
    (hd : seg ≠ .anyDepth) : names.length = names'.length := by
  cases h with
  | literal => cases h' with
    | literal => rfl
  | pattern => cases h' with
    | pattern => rfl
  | anyDepth => exact absurd rfl hd

theorem Leads.lengths_eq {place' dest' : List String} {route' : List (List String)}
    (h : Leads tree place segs route dest) (h' : Leads tree place' segs route' dest')
    (hd : Segment.anyDepth ∉ segs) : route.map List.length = route'.map List.length := by
  induction h generalizing place' route' with
  | here => cases h' with
    | here => rfl
  | step hf hs _ ih => cases h' with
    | step hf' hs' hrest =>
      obtain ⟨hseg, hsegs⟩ := not_or.mp (List.mem_cons.not.mp hd)
      rw [List.map_cons, List.map_cons, hs.length_eq hs' (Ne.symm hseg), ih hrest hsegs]

theorem Leads.lengths_eq_of_length {place' dest' : List String} {route' : List (List String)}
    (h : Leads tree place segs route dest) (h' : Leads tree place' segs route' dest')
    (hd : segs.count .anyDepth ≤ 1) (hl : route.flatten.length = route'.flatten.length) :
    route.map List.length = route'.map List.length := by
  induction h generalizing place' route' with
  | here => cases h' with
    | here => rfl
  | @step _ names _ seg segs rest hf hs hrest ih => cases h' with
    | @step _ names' _ _ _ rest' hf' hs' hrest' =>
      rw [List.flatten_cons, List.flatten_cons, List.length_append, List.length_append] at hl
      rw [List.map_cons, List.map_cons]
      -- a segment of any depth takes what the others, of one length on both routes, leave of the whole
      by_cases hseg : seg = .anyDepth
      · have hnone : Segment.anyDepth ∉ segs := by
          rw [hseg, List.count_cons_self] at hd
          exact List.count_eq_zero.mp (by omega)
        have htail := hrest.lengths_eq hrest' hnone
        rw [List.length_flatten, List.length_flatten, htail] at hl
        rw [htail, Nat.add_right_cancel hl]
      · have hnames := hs.length_eq hs' hseg
        rw [List.count_cons_of_ne hseg] at hd
        rw [hnames, ih hrest' hd (by omega)]

theorem leads_unique (hw : tree.WellFormed) {route' : List (List String)}
    (h : Leads tree place segs route dest) (h' : Leads tree place segs route' dest)
    (hc : ∀ name, .literal name ∈ segs → ".." ∉ pathNames name) (hd : segs.count .anyDepth ≤ 1) :
    route = route' := by
  have hend : place ++ route.flatten = place ++ route'.flatten := by
    rw [← foldl_descend_append (h.climb_not_mem hw hc), ← h.eq_foldl,
      ← foldl_descend_append (h'.climb_not_mem hw hc), ← h'.eq_foldl]
  have hflat := List.append_cancel_left hend
  have hlengths := h.lengths_eq_of_length h' hd (congrArg List.length hflat)
  exact List.eq_iff_flatten_eq.mpr ⟨hflat, hlengths⟩

end BeanCatalog.Glob
