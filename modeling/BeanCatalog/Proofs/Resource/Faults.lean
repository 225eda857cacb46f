import BeanCatalog.Resource.Location

namespace BeanCatalog

theorem bind_eq_error {ε α β : Type} {act : Except ε α} {next : α → Except ε β} {err : ε}
    (h : (act >>= next) = .error err) :
    act = .error err ∨ ∃ a, act = .ok a ∧ next a = .error err := by
  cases act with
  | error e => exact .inl (congrArg Except.error (Except.error.inj h))
  | ok a => exact .inr ⟨a, rfl, h⟩

theorem bind_eq_ok {ε α β : Type} {act : Except ε α} {next : α → Except ε β} {b : β}
    (h : (act >>= next) = .ok b) : ∃ a, act = .ok a ∧ next a = .ok b := by
  cases act with
  | error e => cases h
  | ok a => exact ⟨a, rfl, h⟩

theorem mapM_eq_error {ε α β : Type} {f : α → Except ε β} {err : ε} {l : List α}
    (h : l.mapM f = .error err) : ∃ a ∈ l, f a = .error err := by
  induction l with
  | nil => cases h
  | cons a l ih =>
    rw [List.mapM_cons] at h
    rcases bind_eq_error h with ha | ⟨b, -, h⟩
    · exact ⟨a, List.mem_cons_self, ha⟩
    rcases bind_eq_error h with hl | ⟨bs, -, h⟩
    · obtain ⟨c, hc, he⟩ := ih hl
      exact ⟨c, List.mem_cons_of_mem a hc, he⟩
    · cases h

theorem mapError_eq_error {ε ε' α : Type} {act : Except ε α} {g : ε → ε'} {err : ε'}
    (h : act.mapError g = .error err) : ∃ e, act = .error e ∧ err = g e := by
  cases act with
  | error e => exact ⟨e, rfl, (Except.error.inj h).symm⟩
  | ok a => cases h

theorem mapError_eq_ok {ε ε' α : Type} {act : Except ε α} {g : ε → ε'} {a : α}
    (h : act.mapError g = .ok a) : act = .ok a := by
  cases act with
  | error e => cases h
  | ok b => exact congrArg Except.ok (Except.ok.inj h)

theorem isFileAt_error {t : FileTree} {start names : List String} {err : FileError}
    (h : t.isFileAt start names = .error err) : err = .nameTooLong := by
  unfold FileTree.isFileAt at h
  split at h
  · cases h
  · split at h
    · cases h
    · exact (Except.error.inj h).symm
    · cases h

namespace FileTree

variable {t : FileTree}

theorem mem_files_of_entry? {place : List String} {data : List UInt8}
    (h : t.entry? place = some (.file data)) : (place, data) ∈ t.files := by
  unfold entry? at h
  cases hl : t.files.lookup place with
  | some found =>
    rw [hl] at h
    cases h
    obtain ⟨front, back, hf, -⟩ := List.lookup_eq_some_iff.mp hl
    rw [hf]
    simp
  | none =>
    rw [hl] at h
    dsimp only at h
    split at h <;> cases h

theorem walk_ok {place p : List String} {names : List String} {entry : FileEntry}
    (h : t.walk place names = .ok (p, entry)) :
    p = names.foldl descend place ∧ t.entry? p = some entry := by
  induction names generalizing place with
  | nil =>
    unfold walk at h
    split at h
    · next e he =>
      cases h
      exact ⟨rfl, he⟩
    · cases h
  | cons name names ih =>
    unfold walk at h
    split at h
    · cases h
    · cases h
    · split at h
      · cases h
      · exact ih h

theorem readAt_ok {start names : List String} {data : List UInt8}
    (h : t.readAt start names = .ok data) : (names.foldl descend start, data) ∈ t.files := by
  unfold readAt at h
  split at h
  · cases h
  · split at h
    · next place found hw =>
      cases h
      obtain ⟨rfl, he⟩ := walk_ok hw
      exact mem_files_of_entry? he
    · cases h
    · cases h

theorem isFileAt_true {start names : List String} (h : t.isFileAt start names = .ok true) :
    ∃ data, t.readAt start names = .ok data := by
  unfold isFileAt at h
  unfold readAt
  split at h
  · cases h
  · next hn =>
    split at h
    · next place data hw =>
      refine ⟨data, ?_⟩
      rw [if_neg hn, hw]
    · cases h
    · cases h

end FileTree

namespace Glob

variable {tree : FileTree} {current : List String} {err : FileError}

theorem folder?_error {path : String} (h : folder? tree current path = .error err) :
    err = .nulInPath := by
  unfold folder? at h
  split at h
  · cases h
  · exact (Except.error.inj h).symm
  · cases h

theorem expand_error {last : Bool} {path : String} {seg : Segment}
    (h : expand tree current last path seg = .error err) : err = .nulInPath := by
  cases seg with
  | literal name => cases h
  | pattern s =>
    rcases bind_eq_error h with h | ⟨place, -, h⟩
    · exact folder?_error h
    · cases h
  | anyDepth =>
    rcases bind_eq_error h with h | ⟨place, -, h⟩
    · exact folder?_error h
    · cases place <;> cases h

theorem expandAll_error {paths : List String} {segs : List Segment}
    (h : expandAll tree current paths segs = .error err) : err = .nulInPath := by
  induction segs generalizing paths with
  | nil => cases h
  | cons seg segs ih =>
    rcases bind_eq_error h with h | ⟨next, -, h⟩
    · obtain ⟨path, -, hp⟩ := mapM_eq_error h
      exact expand_error hp
    · exact ih h

theorem files_error {pattern : String} (h : files tree current pattern = .error err) :
    err = .nulInPath := by
  rcases bind_eq_error h with h | ⟨paths, -, h⟩
  · exact expandAll_error h
  · cases h

end Glob

section

variable {w : Workspace} {r : Resource} {f : Failure}

theorem present_error (h : r.present w = .error f) :
    f = .file .nameTooLong ∨ f = .unsupported ∧ r = .unknown := by
  cases r with
  | file path =>
    obtain ⟨err, hf, rfl⟩ := mapError_eq_error h
    exact .inl (congrArg Failure.file (isFileAt_error hf))
  | bytes data label => cases h
  | package name path =>
    simp only [Resource.present] at h
    cases hp : w.packageFolder? name with
    | none =>
      rw [hp] at h
      cases h
    | some folder =>
      rw [hp] at h
      obtain ⟨err, hf, rfl⟩ := mapError_eq_error h
      exact .inl (congrArg Failure.file (isFileAt_error hf))
  | stub stub => cases h
  | unknown => exact .inr ⟨(Except.error.inj h).symm, rfl⟩

theorem same_self (h : r ≠ .unknown) : r.same r = true := by
  cases r <;> simp_all [Resource.same]

theorem sibling_error {relative : String} (h : r.sibling relative = .error f) :
    f = .noRelative r.description := by
  cases r <;> first | exact (Except.error.inj h).symm | cases h

theorem sibling_ne_unknown {relative : String} {q : Resource} (h : r.sibling relative = .ok q) :
    q ≠ .unknown := by
  cases r <;> cases h <;> exact fun h => by cases h

theorem url_error (h : r.url = .error f) : f = .notAddressable r.description := by
  cases r with
  | stub stub =>
    simp only [Resource.url] at h
    split at h
    · cases h
    · exact (Except.error.inj h).symm
  | _ => first | exact (Except.error.inj h).symm | cases h

end

theorem startsWith_head {s pre : String} {c d : Char} {cs ds : List Char} (hs : s.toList = c :: cs)
    (hp : pre.toList = d :: ds) (hne : c ≠ d) : s.startsWith pre = false := by
  rw [String.startsWith_string_eq_false_iff, hs, hp]
  rintro ⟨tail, ht⟩
  exact hne (List.cons.inj ht).1.symm

namespace Location

variable {w : Workspace} {location : String} {f : Failure}

theorem toPath_error (h : toPath location = .error f) :
    ∃ err, Url.split location = .error err ∧ f = .url err := by
  unfold toPath at h
  split at h
  · cases hu : Url.split location with
    | error err =>
      rw [hu] at h
      exact ⟨err, rfl, (Except.error.inj h).symm⟩
    | ok url =>
      rw [hu] at h
      cases h
  · cases h

theorem resource_error (h : resource w location = .error f) :
    f = .packageLocation location ∨ ∃ err, Url.split location = .error err ∧ f = .url err := by
  unfold resource at h
  dsimp only at h
  split at h
  · split at h
    · exact .inl (Except.error.inj h).symm
    · cases h
  · cases ht : toPath location with
    | error g =>
      rw [ht] at h
      cases h
      exact .inr (toPath_error ht)
    | ok path =>
      rw [ht] at h
      cases h

theorem resources_error (h : resources w location = .error f) :
    f = .packageLocation location ∨ (∃ err, Url.split location = .error err ∧ f = .url err) ∨
      f = .file .nulInPath := by
  unfold resources at h
  split at h
  · rcases bind_eq_error h with h | ⟨r, -, h⟩
    · exact (resource_error h).imp_right .inl
    · cases h
  · rcases bind_eq_error h with h | ⟨path, -, h⟩
    · exact .inr (.inl (toPath_error h))
    rcases bind_eq_error h with h | ⟨files, -, h⟩
    · obtain ⟨err, hf, rfl⟩ := mapError_eq_error h
      exact .inr (.inr (congrArg Failure.file (Glob.files_error hf)))
    · cases h

theorem resource_ok {r : Resource} (h : resource w location = .ok r) :
    (location.startsWith packagePrefix = true ∧ ∃ name path, r = .ofPackage name path) ∨
      ∃ path, r = .ofFile w path := by
  unfold resource at h
  dsimp only at h
  split at h
  case isTrue hp =>
    split at h
    · cases h
    · exact .inl ⟨hp, _, _, (Except.ok.inj h).symm⟩
  case isFalse =>
    cases ht : toPath location with
    | error g =>
      rw [ht] at h
      cases h
    | ok path =>
      rw [ht] at h
      exact .inr ⟨path, (Except.ok.inj h).symm⟩

theorem resources_ok {rs : List Resource} {r : Resource} (h : resources w location = .ok rs)
    (hr : r ∈ rs) :
    (location.startsWith packagePrefix = true ∧ ∃ name path, r = .ofPackage name path) ∨
      ∃ path, r = .ofFile w path := by
  unfold resources at h
  split at h
  · obtain ⟨q, hq, h⟩ := bind_eq_ok h
    cases h
    rw [List.mem_singleton.mp hr]
    exact resource_ok hq
  · obtain ⟨path, -, h⟩ := bind_eq_ok h
    obtain ⟨files, -, h⟩ := bind_eq_ok h
    cases h
    obtain ⟨file, -, rfl⟩ := List.mem_map.mp hr
    exact .inr ⟨file, rfl⟩

end Location

section

variable {w : Workspace}

theorem mem_files_of_file {path : AbsolutePath} {data : List UInt8}
    (h : (Resource.file path).read w = .ok data) :
    (path.names.foldl descend [], data) ∈ w.tree.files :=
  FileTree.readAt_ok (mapError_eq_ok h)

theorem file_of_present {path : AbsolutePath} (h : (Resource.file path).present w = .ok true) :
    ∃ data, (Resource.file path).read w = .ok data := by
  obtain ⟨data, hd⟩ := FileTree.isFileAt_true (mapError_eq_ok h)
  refine ⟨data, ?_⟩
  simp only [Resource.read, hd]
  rfl

theorem mem_files_of_package {name : String} {path : List String} {data : List UInt8}
    (h : (Resource.package name path).read w = .ok data) :
    ∃ folder, w.packageFolder? name = some folder ∧
      (path.foldl descend folder, data) ∈ w.tree.files := by
  simp only [Resource.read] at h
  cases hf : w.packageFolder? name with
  | none =>
    rw [hf] at h
    cases h
  | some folder =>
    rw [hf] at h
    dsimp only at h
    split at h
    · cases h
    · exact ⟨folder, rfl, FileTree.readAt_ok (mapError_eq_ok h)⟩

theorem package_of_present {name : String} {path : List String}
    (h : (Resource.package name path).present w = .ok true) :
    ∃ data, (Resource.package name path).read w = .ok data := by
  simp only [Resource.present] at h
  cases hf : w.packageFolder? name with
  | none =>
    rw [hf] at h
    cases h
  | some folder =>
    rw [hf] at h
    obtain ⟨data, hd⟩ := FileTree.isFileAt_true (mapError_eq_ok h)
    refine ⟨data, ?_⟩
    simp only [Resource.read, hf, hd]
    rfl

theorem read_error {r : Resource} {f : Failure} (hp : r.present w = .ok true)
    (h : r.read w = .error f) : f.kind.isSystem = true := by
  cases r with
  | file path =>
    obtain ⟨data, hd⟩ := file_of_present hp
    rw [hd] at h
    cases h
  | bytes data label => cases h
  | package name path =>
    obtain ⟨data, hd⟩ := package_of_present hp
    rw [hd] at h
    cases h
  | stub stub =>
    cases h
    rfl
  | unknown => cases hp

end

end BeanCatalog
