import BeanCatalog.Files.Tree
import BeanCatalog.Proofs.Files.Paths
import Mathlib.Data.List.Nodup

namespace BeanCatalog

structure FileName (name : String) : Prop extends IsName name where
  noClimb : name ≠ ".."
  noNul : hasNul name = false
  short : name.utf8ByteSize ≤ FileTree.longestName

theorem fileName_iff {name : String} : FileName name ↔
    (name ≠ "" ∧ name ≠ "." ∧ '/' ∉ name.toList) ∧ name ≠ ".." ∧ hasNul name = false ∧
      name.utf8ByteSize ≤ FileTree.longestName :=
  ⟨fun h => ⟨⟨h.ne_empty, h.ne_dot, h.no_slash⟩, h.noClimb, h.noNul, h.short⟩,
    fun ⟨⟨he, hd, hs⟩, hc, hn, hl⟩ => ⟨⟨he, hd, hs⟩, hc, hn, hl⟩⟩

instance (name : String) : Decidable (FileName name) := decidable_of_iff _ fileName_iff.symm

namespace FileTree

/-- A tree as a file system holds one: its names are names of files, and nothing lies below a file. -/
structure WellFormed (t : FileTree) : Prop where
  fileName : ∀ p ∈ t.places, ∀ name ∈ p, FileName name
  leaf : ∀ file ∈ t.files, t.isFolder file.1 = false

def isFile (t : FileTree) (p : List String) : Bool :=
  match t.entry? p with
  | some (.file _) => true
  | _ => false

variable {t : FileTree} {p q names : List String} {name : String}

theorem isFile_iff : t.isFile p = true ↔ ∃ data, t.entry? p = some (.file data) := by
  unfold isFile
  split
  next data he => exact iff_of_true rfl ⟨data, he⟩
  next hne => exact iff_of_false Bool.false_ne_true fun ⟨data, he⟩ => hne data he

theorem mem_places_iff_below :
    p ∈ t.places ↔ p ≠ [] ∧ ∃ q ∈ t.files.map Prod.fst ++ t.folders, p <+: q := by
  simp only [places, List.mem_eraseDups, List.mem_flatMap, List.mem_map, List.mem_range]
  constructor
  · rintro ⟨q, hq, n, hn, rfl⟩
    refine ⟨?_, q, hq, List.take_prefix _ _⟩
    rw [ne_eq, List.take_eq_nil_iff]
    rintro (h | rfl)
    · exact absurd h (Nat.succ_ne_zero n)
    · exact absurd hn (Nat.not_lt_zero n)
  · rintro ⟨hp, q, hq, hpq⟩
    have hpos : 0 < p.length := List.length_pos_of_ne_nil hp
    refine ⟨q, hq, p.length - 1, ?_, ?_⟩
    · have := hpq.length_le
      omega
    · rw [Nat.sub_add_cancel hpos]
      exact (List.prefix_iff_eq_take.mp hpq).symm

theorem isFolder_iff : t.isFolder p = true ↔
    p = [] ∨ (∃ q ∈ t.folders, p <+: q) ∨ ∃ q ∈ t.files.map Prod.fst, p <+: q ∧ p ≠ q := by
  simp [isFolder, or_assoc]

theorem entry?_isSome_iff :
    (t.entry? p).isSome = true ↔ p ∈ t.files.map Prod.fst ∨ t.isFolder p = true := by
  unfold entry?
  cases hl : t.files.lookup p with
  | some data =>
    obtain ⟨front, back, hf, -⟩ := List.lookup_eq_some_iff.mp hl
    have hmem : p ∈ t.files.map Prod.fst := by simp [hf]
    simp [hmem]
  | none =>
    have hmem : p ∉ t.files.map Prod.fst := by
      intro hm
      obtain ⟨⟨q, data⟩, hq, rfl⟩ := List.mem_map.mp hm
      simpa using List.lookup_eq_none_iff.mp hl (q, data) hq
    cases hd : t.isFolder p <;> simp [hmem]

theorem mem_places_iff : p ∈ t.places ↔ p ≠ [] ∧ (t.entry? p).isSome = true := by
  rw [mem_places_iff_below, entry?_isSome_iff, isFolder_iff]
  refine and_congr_right fun hp => ⟨?_, ?_⟩
  · rintro ⟨q, hq, hpq⟩
    rcases List.mem_append.mp hq with hq | hq
    · by_cases he : p = q
      · exact .inl (he ▸ hq)
      · exact .inr (.inr (.inr ⟨q, hq, hpq, he⟩))
    · exact .inr (.inr (.inl ⟨q, hq, hpq⟩))
  · rintro (hm | rfl | ⟨q, hq, hpq⟩ | ⟨q, hq, hpq, -⟩)
    · exact ⟨p, List.mem_append_left _ hm, List.prefix_rfl⟩
    · exact absurd rfl hp
    · exact ⟨q, List.mem_append_right _ hq, hpq⟩
    · exact ⟨q, List.mem_append_left _ hq, hpq⟩

theorem isFolder_of_below (h : (t.entry? (p ++ names)).isSome = true) (hn : names ≠ []) :
    t.isFolder p = true := by
  have hfront : p <+: p ++ names := List.prefix_append p names
  have hproper : p ≠ p ++ names := fun he => hn (List.self_eq_append_right.mp he)
  rw [isFolder_iff]
  rcases entry?_isSome_iff.mp h with hm | hf
  · exact .inr (.inr ⟨_, hm, hfront, hproper⟩)
  rcases isFolder_iff.mp hf with he | ⟨q, hq, hpq⟩ | ⟨q, hq, hpq, -⟩
  · exact absurd (List.append_eq_nil_iff.mp he).2 hn
  · exact .inr (.inl ⟨q, hq, hfront.trans hpq⟩)
  · refine .inr (.inr ⟨q, hq, hfront.trans hpq, ?_⟩)
    rintro rfl
    exact hproper (hpq.eq_of_length_le hfront.length_le).symm

theorem isFolder_parent (h : t.isFile p = true) : t.isFolder p.dropLast = true := by
  obtain ⟨data, he⟩ := isFile_iff.mp h
  rcases List.eq_nil_or_concat p with rfl | ⟨front, last, rfl⟩
  · rfl
  · rw [List.concat_eq_append] at he ⊢
    rw [List.dropLast_concat]
    exact isFolder_of_below (by rw [he]; rfl) (List.cons_ne_nil last [])

theorem nodup_eraseDups (ps : List (List String)) : ps.eraseDups.Nodup := by
  cases ps with
  | nil => exact List.nodup_nil
  | cons p ps =>
    rw [List.eraseDups_cons]
    apply List.nodup_cons.mpr
    constructor
    · simp [List.mem_eraseDups]
    · exact nodup_eraseDups (ps.filter fun q => !q == p)
termination_by ps.length
decreasing_by exact Nat.lt_succ_of_le (List.length_filter_le _ _)

theorem nodup_places (t : FileTree) : t.places.Nodup := nodup_eraseDups _

theorem mem_children_iff : name ∈ t.children p ↔ (t.entry? (p ++ [name])).isSome = true := by
  have hplace : (t.entry? (p ++ [name])).isSome = true ↔ p ++ [name] ∈ t.places := by
    rw [mem_places_iff]
    simp
  rw [hplace, children, List.mem_filterMap]
  constructor
  · rintro ⟨q, hq, hname⟩
    split at hname
    next hp => rwa [← hp, List.dropLast_append_getLast? name hname]
    next => cases hname
  · exact fun h => ⟨_, h, by simp⟩

theorem nodup_children (t : FileTree) (p : List String) : (t.children p).Nodup := by
  refine t.nodup_places.filterMap fun q q' name hq hq' => ?_
  simp only [Option.mem_def] at hq hq'
  split at hq
  next hp =>
    split at hq'
    next hp' =>
      rw [← List.dropLast_append_getLast? name hq, ← List.dropLast_append_getLast? name hq', hp, hp']
    next => cases hq'
  next => cases hq

theorem below_eq_some {q : List String} :
    (if p.isPrefixOf q && p != q then some (q.drop p.length) else none) = some names ↔
      q = p ++ names ∧ names ≠ [] := by
  constructor
  · intro h
    split at h
    next hp =>
      simp only [Bool.and_eq_true, List.isPrefixOf_iff_prefix, bne_iff_ne] at hp
      obtain ⟨⟨back, rfl⟩, hne⟩ := hp
      obtain rfl : back = names := by simpa using h
      exact ⟨rfl, fun he => hne (by rw [he, List.append_nil])⟩
    next => cases h
  · rintro ⟨rfl, hn⟩
    simp [hn]

theorem mem_below_iff :
    names ∈ t.below p ↔ names ≠ [] ∧ (t.entry? (p ++ names)).isSome = true := by
  simp only [below, List.mem_filterMap, below_eq_some]
  constructor
  · rintro ⟨q, hq, rfl, hn⟩
    exact ⟨hn, (mem_places_iff.mp hq).2⟩
  · rintro ⟨hn, he⟩
    refine ⟨p ++ names, mem_places_iff.mpr ⟨?_, he⟩, rfl, hn⟩
    exact fun hnil => hn (List.append_eq_nil_iff.mp hnil).2

theorem nodup_below (t : FileTree) (p : List String) : (t.below p).Nodup := by
  refine t.nodup_places.filterMap fun q q' names hq hq' => ?_
  rw [Option.mem_def, below_eq_some] at hq hq'
  rw [hq.1, hq'.1]

theorem walk_append (place : List String) (names more : List String) :
    t.walk place (names ++ more) =
      match t.walk place names with
      | .ok (p, _) => t.walk p more
      | .error err => .error err := by
  induction names generalizing place with
  | nil =>
    rw [List.nil_append, walk]
    cases hentry : t.entry? place with
    | some entry => rfl
    | none => cases more <;> simp only [walk, hentry]
  | cons name names ih =>
    simp only [List.cons_append, walk]
    split
    · rfl
    · rfl
    · split
      · rfl
      · exact ih (descend place name)

namespace WellFormed

variable (h : t.WellFormed)

include h

theorem entry?_folder_iff : t.entry? p = some .folder ↔ t.isFolder p = true := by
  unfold entry?
  cases hl : t.files.lookup p with
  | some data =>
    obtain ⟨front, back, hf, -⟩ := List.lookup_eq_some_iff.mp hl
    have hleaf : t.isFolder p = false := h.leaf (p, data) (by simp [hf])
    simp [hleaf]
  | none => simp

theorem isFolder_of_isFile (hp : t.isFile p = true) : t.isFolder p = false := by
  obtain ⟨data, he⟩ := isFile_iff.mp hp
  rw [← Bool.not_eq_true, ← h.entry?_folder_iff, he]
  exact nofun

theorem fileName_of_entry? (he : (t.entry? p).isSome = true) (hm : name ∈ p) : FileName name := by
  refine h.fileName p (mem_places_iff.mpr ⟨?_, he⟩) name hm
  rintro rfl
  exact absurd hm List.not_mem_nil

theorem fileName_of_isFile (hp : t.isFile p = true) (hm : name ∈ p) : FileName name := by
  obtain ⟨data, he⟩ := isFile_iff.mp hp
  exact h.fileName_of_entry? (by rw [he]; rfl) hm

theorem name_of_descend (he : (t.entry? (descend p name)).isSome = true) :
    hasNul name = false ∧ name.utf8ByteSize ≤ longestName := by
  by_cases hclimb : name = ".."
  · rw [hclimb]
    exact ⟨rfl, by decide⟩
  · rw [descend, if_neg hclimb] at he
    have hfile := h.fileName_of_entry? he (List.mem_append_right p List.mem_cons_self)
    exact ⟨hfile.noNul, hfile.short⟩

theorem walk_folder (hf : t.isFolder p = true) (hs : name.utf8ByteSize ≤ longestName)
    (names : List String) : t.walk p (name :: names) = t.walk (descend p name) names := by
  rw [walk, h.entry?_folder_iff.mpr hf]
  exact if_neg (Nat.not_lt.mpr hs)

theorem walk_of_entry? {entry : FileEntry} (he : t.entry? (p ++ names) = some entry) :
    t.walk p names = .ok (p ++ names, entry) := by
  induction names generalizing p with
  | nil =>
    rw [List.append_nil] at he
    rw [walk, he, List.append_nil]
  | cons name names ih =>
    have hsome : (t.entry? (p ++ name :: names)).isSome = true := by rw [he]; rfl
    have hname := h.fileName_of_entry? hsome (List.mem_append_right p List.mem_cons_self)
    have hfolder := isFolder_of_below hsome (List.cons_ne_nil name names)
    have hcut : p ++ name :: names = p ++ [name] ++ names := by simp
    rw [hcut] at he ⊢
    rw [h.walk_folder hfolder hname.short, descend, if_neg hname.noClimb, ih he]

theorem isFileAt_of_isFile (hp : t.isFile p = true) : t.isFileAt [] p = .ok true := by
  obtain ⟨data, he⟩ := isFile_iff.mp hp
  have hnul : p.any hasNul = false := by
    apply List.any_eq_false.mpr
    intro name hm
    rw [(h.fileName_of_isFile hp hm).noNul]
    exact Bool.false_ne_true
  have hwalk : t.walk [] p = .ok (p, .file data) := h.walk_of_entry? (p := []) he
  rw [isFileAt, hnul, hwalk]
  rfl

end WellFormed

end FileTree

end BeanCatalog
