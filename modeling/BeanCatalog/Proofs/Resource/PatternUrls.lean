import BeanCatalog.Proofs.Resource.Faults
import BeanCatalog.Proofs.Url.FileUrls

namespace BeanCatalog

/-- A path from the root in printable ASCII, with none of the signs that begin an escape or a fragment
in a URL. -/
structure RootedPath (path : String) : Prop where
  rooted : path.toList.head? = some '/'
  printable : ∀ c ∈ path.toList, 0x20 ≤ c.toNat ∧ c.toNat ≤ 0x7E
  noEscape : '%' ∉ path.toList
  noFragment : '#' ∉ path.toList

theorem rootedPath_iff {path : String} : RootedPath path ↔
    path.toList.head? = some '/' ∧
      (path.toList.all fun c => 0x20 ≤ c.toNat && c.toNat ≤ 0x7E) = true ∧
      '%' ∉ path.toList ∧ '#' ∉ path.toList := by
  have hall : (path.toList.all fun c => 0x20 ≤ c.toNat && c.toNat ≤ 0x7E) = true ↔
      ∀ c ∈ path.toList, 0x20 ≤ c.toNat ∧ c.toNat ≤ 0x7E := by
    simp only [List.all_eq_true, Bool.and_eq_true, decide_eq_true_eq]
  rw [hall]
  exact ⟨fun h => ⟨h.rooted, h.printable, h.noEscape, h.noFragment⟩,
    fun ⟨hr, hp, he, hf⟩ => ⟨hr, hp, he, hf⟩⟩

instance (path : String) : Decidable (RootedPath path) := decidable_of_iff _ rootedPath_iff.symm

def beforeQuery (s : String) : String := String.ofList (s.toList.takeWhile (· != '?'))

theorem beforeQuery_eq {s : String} (h : '?' ∉ s.toList) : beforeQuery s = s := by
  have hall : s.toList.takeWhile (· != '?') = s.toList := by
    apply List.takeWhile_eq_self_iff.mpr
    intro c hc
    exact bne_iff_ne.mpr fun he => h (he ▸ hc)
  rw [beforeQuery, hall, String.ofList_toList]

namespace Url

theorem split_rootedPath {path : String} (h : RootedPath path) :
    split ("file://" ++ path) = .ok ⟨"file", "", beforeQuery path⟩ := by
  have hbreak : ∀ c ∈ path.toList, isBreak c = false := by
    intro c hc
    have hprintable := (h.printable c hc).1
    simp only [isBreak, Bool.or_eq_false_iff, beq_eq_false_iff_ne]
    refine ⟨⟨?_, ?_⟩, ?_⟩ <;> rintro rfl <;> exact absurd hprintable (by decide)
  have hpath : path.toList.takeWhile (fun c => c != '?' && c != '#') =
      path.toList.takeWhile (· != '?') := by
    have hall : path.toList.takeWhile (· != '#') = path.toList :=
      List.takeWhile_eq_self_iff.mpr fun c hc => bne_iff_ne.mpr fun he => h.noFragment (he ▸ hc)
    rw [← congrArg (List.takeWhile (· != '?')) hall, List.takeWhile_takeWhile]
    simp only [Bool.decide_and, Bool.decide_eq_true]
  rw [split_fileUrl h.rooted hbreak, beforeQuery, hpath]

end Url

def Location.matched (w : Workspace) (pattern : String) : Except Failure (List Resource) := do
  let files ← (Glob.files w.tree w.current pattern).mapError .file
  pure (files.map (Resource.ofFile w))

namespace Location

variable {w : Workspace} {path location : String}

theorem resources_pattern (hp : location.startsWith packagePrefix = false)
    (hw : Text.hasWildcard location = true) (ht : toPath location = .ok path) :
    resources w location = matched w path := by
  rw [resources, hp, hw, ht]
  rfl

theorem resources_plain (hp : location.startsWith packagePrefix = false)
    (hw : Text.hasWildcard location = false) (ht : toPath location = .ok path) :
    resources w location = .ok [.ofFile w path] := by
  rw [resources, hw, Bool.not_false, Bool.or_true, if_pos rfl, resource, hp, ht]
  rfl

theorem toPath_url (h : RootedPath path) : toPath ("file://" ++ path) = .ok (beforeQuery path) := by
  have hfile : ("file://" ++ path).startsWith filePrefix = true := by
    rw [String.startsWith_string_iff, String.toList_append]
    exact ⟨"//".toList ++ path.toList, rfl⟩
  have hsub : (beforeQuery path).toList ⊆ path.toList := by
    rw [beforeQuery, String.toList_ofList]
    exact (List.takeWhile_prefix _).subset
  have hplain : Percent.decode (beforeQuery path) = beforeQuery path :=
    Percent.decode_plain fun hm => h.noEscape (hsub hm)
  rw [toPath, if_pos hfile, Url.split_rootedPath h]
  exact congrArg Except.ok hplain

theorem toPath_path (h : RootedPath path) : toPath path = .ok path := by
  obtain ⟨cs, hcs⟩ := List.head?_eq_some_iff.mp h.rooted
  have hfile : path.startsWith filePrefix = false := startsWith_head hcs rfl (by decide)
  rw [toPath, hfile]
  rfl

theorem hasWildcard_url (path : String) :
    Text.hasWildcard ("file://" ++ path) = Text.hasWildcard path := by
  rw [Text.hasWildcard, String.toList_append, List.any_append]
  rfl

/-- A path from the root names the same resources by itself and as a file URL just when it has no
question mark, or when its part before the first one matches the same files. -/
theorem file_url_resources_iff (w : Workspace) (h : RootedPath path) :
    resources w ("file://" ++ path) = resources w path ↔
      '?' ∉ path.toList ∨ matched w (beforeQuery path) = matched w path := by
  obtain ⟨cs, hcs⟩ := List.head?_eq_some_iff.mp h.rooted
  have hpath : path.startsWith packagePrefix = false := startsWith_head hcs rfl (by decide)
  have hurl : ("file://" ++ path).startsWith packagePrefix = false :=
    startsWith_head (Url.fileUrl_toList path) rfl (by decide)
  cases hw : Text.hasWildcard path with
  | true =>
    rw [resources_pattern hurl ((hasWildcard_url path).trans hw) (toPath_url h),
      resources_pattern hpath hw (toPath_path h)]
    constructor
    · exact .inr
    · rintro (hq | hm)
      · rw [beforeQuery_eq hq]
      · exact hm
  | false =>
    have hq : '?' ∉ path.toList := fun hm => List.any_eq_false.mp hw '?' hm (by decide)
    refine iff_of_true ?_ (.inl hq)
    rw [resources_plain hurl ((hasWildcard_url path).trans hw) (toPath_url h),
      resources_plain hpath hw (toPath_path h), beforeQuery_eq hq]

end Location

def queryWorkspace : Workspace where
  tree := ⟨[(["tmp", "vfs", "ab.xml"], [])], []⟩
  current := ["tmp", "vfs"]
  packageRoot := ["tmp", "packages"]
  packages := []

theorem question_mark_cut :
    let found := [Resource.ofFile queryWorkspace "ab.xml"]
    (Location.resources queryWorkspace "/tmp/vfs/a?.xml").toOption = some found ∧
      (Location.resources queryWorkspace "file:///tmp/vfs/a?.xml").toOption = some [] := by
  decide +kernel

theorem queryWorkspace_spelled :
    RootedPath "/tmp/vfs/a[b]*" ∧ RootedPath "/tmp/vfs/a?.xml" ∧
      Location.resources queryWorkspace ("file://" ++ "/tmp/vfs/a[b]*") =
        Location.resources queryWorkspace "/tmp/vfs/a[b]*" ∧
      Location.resources queryWorkspace ("file://" ++ "/tmp/vfs/a?.xml") ≠
        Location.resources queryWorkspace "/tmp/vfs/a?.xml" := by
  have hset : RootedPath "/tmp/vfs/a[b]*" := by decide
  have hquery : RootedPath "/tmp/vfs/a?.xml" := by decide
  refine ⟨hset, hquery, ?_, fun hsame => ?_⟩
  · exact (Location.file_url_resources_iff queryWorkspace hset).mpr (.inl (by decide))
  · rcases (Location.file_url_resources_iff queryWorkspace hquery).mp hsame with hnone | hmatched
    · exact hnone (by decide)
    · have hfound := congrArg Except.toOption hmatched
      exact absurd hfound (by decide +kernel)

end BeanCatalog
