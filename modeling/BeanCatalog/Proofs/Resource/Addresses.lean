import BeanCatalog.Proofs.Files.Rendering
import BeanCatalog.Proofs.Resource.Faults
import BeanCatalog.Proofs.Url.FileUrls

namespace BeanCatalog

inductive Resource.Placed : Resource → Prop
  | file {path : AbsolutePath} (h : path.Normal) : Placed (.file path)
  | package {name : String} {path : List String} (h : RelativeNormal path) :
    Placed (.package name path)

def Resource.InNamedPackage : Resource → Prop
  | .package name _ => Location.isPackageName name.toList = true
  | _ => True

theorem placed_ofFile {w : Workspace} (h : AbsolutePath.Normal ⟨false, w.current⟩) (path : String) :
    (Resource.ofFile w path).Placed :=
  .file (AbsolutePath.normal_ofString h path)

theorem placed_ofPackage (name path : String) : (Resource.ofPackage name path).Placed :=
  .package (.relativeNames path)

namespace Location

variable {w : Workspace} {location : String}

theorem slash_not_mem_of_isIdentifier {run : List Char} (h : isIdentifier run = true) :
    '/' ∉ run := by
  have hstart : Text.identifierStart.has '/' = false := by decide +kernel
  have hcontinue : Text.identifierContinueOnly.has '/' = false := by decide +kernel
  cases run with
  | nil => exact List.not_mem_nil
  | cons c cs =>
    rw [isIdentifier, Bool.and_eq_true] at h
    intro hm
    rcases List.mem_cons.mp hm with rfl | hm
    · rw [hstart] at h
      exact absurd h.1 nofun
    · have hslash := List.all_eq_true.mp h.2 '/' hm
      rw [hstart, hcontinue] at hslash
      exact absurd hslash nofun

theorem slash_not_mem_of_isPackageName {name : List Char} (h : isPackageName name = true) :
    '/' ∉ name := by
  intro hm
  have hdot : '/' ∉ ['.'] := by decide
  obtain ⟨run, hrun, hslash⟩ := mem_splitAny_of_mem hdot hm
  exact slash_not_mem_of_isIdentifier (List.all_eq_true.mp h run hrun) hslash

theorem startsWith_packagePrefix (s : String) : (packagePrefix ++ s).startsWith packagePrefix = true := by
  rw [String.startsWith_string_iff, String.toList_append]
  exact List.prefix_append _ _

theorem resource_package {name path : String} (hn : isPackageName name.toList = true)
    (hp : path ≠ "") : resource w (packagePrefix ++ (name ++ "/" ++ path)) = .ok (.ofPackage name path) := by
  have hdrop : (packagePrefix ++ (name ++ "/" ++ path)).toList.drop packagePrefix.length =
      name.toList ++ '/' :: path.toList := by
    have hrest : (name ++ "/" ++ path).toList = name.toList ++ '/' :: path.toList := by simp
    rw [String.toList_append, hrest]
    rfl
  have hname : (name.toList ++ '/' :: path.toList).takeWhile (· != '/') = name.toList := by
    have hall : ∀ c ∈ name.toList, (c != '/') = true := by
      intro c hc
      rw [bne_iff_ne]
      rintro rfl
      exact slash_not_mem_of_isPackageName hn hc
    rw [List.takeWhile_append_of_pos hall]
    simp
  have hrest : (name.toList ++ '/' :: path.toList).drop (name.toList.length + 1) = path.toList := by
    rw [List.drop_append]
    simp
  have hempty : path.toList.isEmpty = false := by
    rw [List.isEmpty_eq_false_iff]
    exact fun he => hp (String.toList_eq_nil_iff.mp he)
  unfold resource
  rw [startsWith_packagePrefix, if_pos rfl, hdrop]
  dsimp only
  rw [hname, hrest, hempty, hn, String.ofList_toList, String.ofList_toList]
  rfl

theorem resource_file {path : String} (hl : location.startsWith packagePrefix = false)
    (ht : toPath location = .ok path) : resource w location = .ok (.ofFile w path) := by
  rw [resource, hl, ht]
  rfl

theorem resources_one {r : Resource}
    (hl : location.startsWith packagePrefix = true ∨ Text.hasWildcard location = false)
    (hr : resource w location = .ok r) : resources w location = .ok [r] := by
  have hone : (location.startsWith packagePrefix || !Text.hasWildcard location) = true := by
    rcases hl with h | h <;> simp [h]
  rw [resources, if_pos hone, hr]
  rfl

theorem hasWildcard_fileUrl {s rest : String} (h : Text.hasWildcard rest = false) :
    Text.hasWildcard ("file://" ++ (Percent.encode s ++ rest)) = false := by
  have hencode : Text.hasWildcard (Percent.encode s) = false := by
    apply List.any_eq_false.mpr
    intro c hc
    have hoccurs := Percent.occurs_of_mem_encode hc
    simp only [Bool.or_eq_true, beq_iff_eq]
    rintro ((rfl | rfl) | rfl) <;> cases hoccurs
  rw [Text.hasWildcard, String.toList_append, String.toList_append, List.any_append, List.any_append]
  change (false || (Text.hasWildcard _ || Text.hasWildcard _)) = false
  rw [hencode, h]
  rfl

end Location

namespace Resource

variable {w : Workspace} {r : Resource}

/-- The URL of a resource is a location of that resource alone. -/
theorem url_leads_back (w : Workspace) (h : r.Placed) (hn : r.InNamedPackage) :
    ∃ url, r.url = .ok url ∧ Location.resource w url = .ok r ∧
      Location.resources w url = .ok [r] := by
  cases h with
  | @file path hp =>
    have hurl : "file://" ++ Percent.encode path.render =
        "file://" ++ (Percent.encode path.render ++ "") := by rw [String.append_empty]
    have hrooted : (path.render ++ "").toList.head? = some '/' := by
      rw [String.append_empty, AbsolutePath.render_eq, String.toList_append]
      cases path.doubleRoot <;> rfl
    have hpath := Location.toPath_fileUrl hrooted ⟨nofun, nofun, nofun, nofun⟩
    rw [← hurl, String.append_empty] at hpath
    have hl : ("file://" ++ Percent.encode path.render).startsWith packagePrefix = false :=
      startsWith_head (Url.fileUrl_toList _) rfl (by decide)
    have hone := Location.resource_file (w := w) hl hpath
    rw [ofFile, AbsolutePath.ofString_render hp] at hone
    refine ⟨_, rfl, hone, Location.resources_one (.inr ?_) hone⟩
    rw [hurl]
    exact Location.hasWildcard_fileUrl rfl
  | @package name path hp =>
    have hurl : packagePrefix ++ name ++ "/" ++ renderRelative path =
        packagePrefix ++ (name ++ "/" ++ renderRelative path) := by
      simp only [String.append_assoc]
    have hone := Location.resource_package (w := w) hn hp.render_ne_empty
    rw [ofPackage, hp.relativeNames_render, ← hurl] at hone
    refine ⟨_, rfl, hone, Location.resources_one (.inl ?_) hone⟩
    rw [hurl]
    exact Location.startsWith_packagePrefix _

end Resource

def bareWorkspace : Workspace where
  tree := ⟨[], []⟩
  current := ["tmp", "vfs"]
  packageRoot := ["tmp", "packages"]
  packages := []

theorem normal_bareWorkspace : AbsolutePath.Normal ⟨false, bareWorkspace.current⟩ where
  isName name hm := by
    simp only [bareWorkspace, List.mem_cons, List.not_mem_nil, or_false] at hm
    rcases hm with rfl | rfl <;> exact ⟨by decide, by decide, by decide⟩
  noClimb := by decide

theorem oddNames_lead_back :
    let file := Resource.ofFile bareWorkspace "a b%[\u00e9]?*#\n.xml"
    let url := "file:///tmp/vfs/a%20b%25%5B%C3%A9%5D%3F%2A%23%0A.xml"
    file.Placed ∧ file.InNamedPackage ∧ file.url = .ok url ∧
      Location.resources bareWorkspace url = .ok [file] := by
  have hplaced := placed_ofFile normal_bareWorkspace "a b%[\u00e9]?*#\n.xml"
  have hurl : (Resource.ofFile bareWorkspace "a b%[\u00e9]?*#\n.xml").url =
      .ok "file:///tmp/vfs/a%20b%25%5B%C3%A9%5D%3F%2A%23%0A.xml" :=
    congrArg Except.ok (by decide +kernel)
  obtain ⟨url, hu, -, hall⟩ := Resource.url_leads_back bareWorkspace hplaced trivial
  obtain rfl := Except.ok.inj (hurl.symm.trans hu)
  exact ⟨hplaced, trivial, hurl, hall⟩

end BeanCatalog
