import BeanCatalog.Proofs.Resource.Addresses

namespace BeanCatalog

def lastSegment (path : String) : String :=
  String.ofList (path.toList.reverse.takeWhile (· != '/')).reverse

theorem reverse_takeWhile_slash {cs : List Char} (h : '/' ∉ cs) (front : List Char) :
    (cs.reverse ++ front).takeWhile (· != '/') = cs.reverse ++ front.takeWhile (· != '/') := by
  apply List.takeWhile_append_of_pos
  intro c hc
  rw [bne_iff_ne]
  rintro rfl
  exact h (List.mem_reverse.mp hc)

theorem lastSegment_cut {front last : String} (h : '/' ∉ last.toList) :
    lastSegment (front ++ "/" ++ last) = last := by
  have hcut : (front ++ "/" ++ last).toList.reverse =
      last.toList.reverse ++ '/' :: front.toList.reverse := by simp
  rw [lastSegment, hcut, reverse_takeWhile_slash h]
  simp

theorem lastSegment_uncut {path : String} (h : '/' ∉ path.toList) : lastSegment path = path := by
  have hwhole := reverse_takeWhile_slash h []
  rw [List.append_nil, List.takeWhile_nil, List.append_nil] at hwhole
  rw [lastSegment, hwhole, List.reverse_reverse, String.ofList_toList]

theorem pathNames_lastSegment {path : String} (h : IsName (lastSegment path)) :
    ∃ front, pathNames path = front ++ [lastSegment path] ∧
      ∀ relative, pathNames (applyRelativePath path relative) = front ++ pathNames relative := by
  rcases cut_cases path with hcut | ⟨front, last, rfl, hlast⟩
  · rw [lastSegment_uncut hcut] at h ⊢
    refine ⟨[], pathNames_of_isName h, fun relative => ?_⟩
    rw [applyRelativePath_uncut hcut, List.nil_append]
  · rw [lastSegment_cut hlast] at h ⊢
    refine ⟨pathNames front, ?_, fun relative => ?_⟩
    · have hpath : (front ++ "/" ++ last).toList = front.toList ++ '/' :: last.toList := by simp
      rw [pathNames_append_slash hpath, pathNames_of_isName h]
    · rw [applyRelativePath_cut hlast, pathNames_append_slashed]

theorem dropLast_foldl_concat {step : List String → String → List String} {last : String}
    (h : ∀ place, step place last = place ++ [last]) (place front : List String) :
    ((front ++ [last]).foldl step place).dropLast = front.foldl step place := by
  rw [List.foldl_append, List.foldl_cons, List.foldl_nil, h, List.dropLast_concat]

theorem AbsolutePath.sibling_twice {relative : String} (hn : IsName (lastSegment relative))
    (hc : lastSegment relative ≠ "..") (p : AbsolutePath) (further : String) :
    (p.sibling relative).sibling further = p.sibling (applyRelativePath relative further) := by
  obtain ⟨front, hrelative, happly⟩ := pathNames_lastSegment hn
  unfold AbsolutePath.sibling
  dsimp only
  rw [hrelative, happly, dropLast_foldl_concat (fun place => if_neg hc), List.foldl_append]

theorem relativeNames_applyRelativePath_twice {names : List String} {relative : String}
    (h : RelativeNormal names) (hn : IsName (lastSegment relative))
    (hc : lastSegment relative ≠ "..") (further : String) :
    relativeNames (applyRelativePath (renderRelative
        (relativeNames (applyRelativePath (renderRelative names) relative))) further) =
      relativeNames (applyRelativePath (renderRelative names)
        (applyRelativePath relative further)) := by
  obtain ⟨front, hrelative, happly⟩ := pathNames_lastSegment hn
  obtain ⟨n, hfirst⟩ := h.climbsFirst
  have hbetween := RelativeNormal.relativeNames (applyRelativePath (renderRelative names) relative)
  obtain ⟨m, hsecond⟩ := hbetween.climbsFirst
  rw [relativeNames_applyRelativePath hbetween.isName hsecond,
    relativeNames_applyRelativePath h.isName hfirst,
    relativeNames_applyRelativePath h.isName hfirst, hrelative, happly,
    dropLast_foldl_concat (descendOpen_name hc), List.foldl_append]

/-- Two relative steps, the first of them to a name, are one step along both paths. -/
theorem Resource.sibling_sibling {r : Resource} {relative : String} (h : r.Placed)
    (hn : IsName (lastSegment relative)) (hc : lastSegment relative ≠ "..") (further : String) :
    ∃ q target, r.sibling relative = .ok q ∧ q.sibling further = .ok target ∧
      r.sibling (applyRelativePath relative further) = .ok target := by
  cases h with
  | file hp =>
    refine ⟨_, _, rfl, rfl, ?_⟩
    simp only [sibling, AbsolutePath.sibling_twice hn hc]
  | package hp =>
    refine ⟨_, _, rfl, rfl, ?_⟩
    simp only [sibling, ofPackage, relativeNames_applyRelativePath_twice hp hn hc]

theorem climbing_steps_compose :
    let r := Resource.ofPackage "p" "d/e.xml"
    r.Placed ∧ IsName (lastSegment "//x/../../y/n.xml") ∧ lastSegment "//x/../../y/n.xml" ≠ ".." ∧
      ∃ q, r.sibling "//x/../../y/n.xml" = .ok q ∧
        q.sibling "/../..//../z.xml" = .ok (.ofPackage "p" "../../z.xml") := by
  have hplaced := placed_ofPackage "p" "d/e.xml"
  have hlast : lastSegment "//x/../../y/n.xml" = "n.xml" := by decide +kernel
  have hname : IsName (lastSegment "//x/../../y/n.xml") :=
    hlast ▸ ⟨by decide, by decide, by decide⟩
  have hclimb : lastSegment "//x/../../y/n.xml" ≠ ".." := hlast ▸ by decide
  obtain ⟨q, target, hq, ht, hboth⟩ :=
    Resource.sibling_sibling hplaced hname hclimb "/../..//../z.xml"
  have htarget : (Resource.ofPackage "p" "d/e.xml").sibling
      (applyRelativePath "//x/../../y/n.xml" "/../..//../z.xml") =
        .ok (.ofPackage "p" "../../z.xml") :=
    congrArg Except.ok (by decide +kernel)
  refine ⟨hplaced, hname, hclimb, q, hq, ?_⟩
  rw [ht, ← hboth, htarget]

theorem applyRelativePath_fileUrl {front last : String} (h : '/' ∉ last.toList) (location : String) :
    applyRelativePath ("file://" ++ Percent.encode (front ++ "/" ++ last)) location =
      "file://" ++ (Percent.encode front ++ slashed location) := by
  have hurl : "file://" ++ Percent.encode (front ++ "/" ++ last) =
      "file://" ++ Percent.encode front ++ "/" ++ Percent.encode last := by
    have hslash : Percent.encode "/" = "/" := by decide
    rw [Percent.encode_append, Percent.encode_append, hslash]
    simp only [String.append_assoc]
  rw [hurl, applyRelativePath_cut (Percent.slash_not_mem_encode h), String.append_assoc]

theorem slashed_toList (s : String) :
    (slashed s).toList = s.toList ∨ (slashed s).toList = '/' :: s.toList := by
  unfold slashed
  split
  · exact .inl rfl
  · exact .inr String.toList_append

theorem head?_slashed (s : String) : (slashed s).toList.head? = some '/' := by
  obtain ⟨rest, hs, -⟩ := slashed_eq s
  rw [hs, String.toList_append]
  rfl

theorem head?_append_slashed {front last : String}
    (h : (front ++ "/" ++ last).toList.head? = some '/') (s : String) :
    (front ++ slashed s).toList.head? = some '/' := by
  rw [String.toList_append, String.toList_append, List.append_assoc, List.head?_append] at h
  rw [String.toList_append, List.head?_append, head?_slashed]
  exact h

theorem PlainInUrl.slashed {s : String} (h : PlainInUrl s) : PlainInUrl (slashed s) := by
  have hmem : ∀ c ∈ (BeanCatalog.slashed s).toList, c = '/' ∨ c ∈ s.toList := by
    intro c hc
    rcases slashed_toList s with he | he
    · exact .inr (he ▸ hc)
    · exact List.mem_cons.mp (he ▸ hc)
  constructor
  · exact fun hm => (hmem _ hm).elim nofun h.noEscape
  · exact fun hm => (hmem _ hm).elim nofun h.noQuery
  · exact fun hm => (hmem _ hm).elim nofun h.noFragment
  · intro c hm
    rcases hmem c hm with rfl | hm
    · rfl
    · exact h.noBreak c hm

theorem hasWildcard_slashed (s : String) : Text.hasWildcard (slashed s) = Text.hasWildcard s := by
  rcases slashed_toList s with he | he <;> rw [Text.hasWildcard, he] <;> rfl

theorem slashed_rest {s : String} (h : ∃ c ∈ s.toList, c ≠ '/') :
    ∃ rest, slashed s = "/" ++ rest ∧ pathNames rest = pathNames s ∧ rest ≠ "" := by
  obtain ⟨rest, hs, hrest⟩ := slashed_eq s
  refine ⟨rest, hs, hrest, ?_⟩
  rintro rfl
  obtain ⟨c, hc, hne⟩ := h
  have hall : (slashed s).toList = ['/'] := by rw [hs]; rfl
  rcases slashed_toList s with he | he
  · rw [← he, hall] at hc
    exact hne (List.mem_singleton.mp hc)
  · have hnil : s.toList = [] := List.tail_eq_of_cons_eq (he.symm.trans hall)
    rw [hnil] at hc
    exact absurd hc List.not_mem_nil

/-- A relative location that means the same beside a resource and in its URL: beside a file below a
folder, a plain text that is no pattern, and in a package, one of more than slashes. -/
def Resource.TakesBeside (location : String) : Resource → Prop
  | .file path =>
    path.names.dropLast ≠ [] ∧ PlainInUrl location ∧ Text.hasWildcard location = false
  | .package _ _ => ∃ c ∈ location.toList, c ≠ '/'
  | _ => False

theorem AbsolutePath.head?_render (p : AbsolutePath) : p.render.toList.head? = some '/' := by
  rw [render_eq, String.toList_append]
  cases p.doubleRoot <;> rfl

theorem resource_beside_file {w : Workspace} {path : AbsolutePath} {location : String}
    (hp : path.Normal) (hl : (Resource.file path).TakesBeside location) :
    let url := applyRelativePath ("file://" ++ Percent.encode path.render) location
    Location.resource w url = .ok (.file (path.sibling location)) ∧
      Location.resources w url = .ok [.file (path.sibling location)] := by
  obtain ⟨hparent, hplain, hwild⟩ := hl
  have hrooted := path.head?_render
  have hsibling := AbsolutePath.ofString_sibling hp hparent w.current location
  rcases cut_cases path.render with hcut | ⟨front, last, hcut, hlast⟩
  · exact absurd (List.mem_of_head? hrooted) hcut
  rw [hcut] at hrooted hsibling ⊢
  rw [applyRelativePath_cut hlast] at hsibling
  rw [applyRelativePath_fileUrl hlast]
  have hto := Location.toPath_fileUrl (head?_append_slashed hrooted location) hplain.slashed
  have hfile : ("file://" ++ (Percent.encode front ++ slashed location)).startsWith
      packagePrefix = false :=
    startsWith_head (Url.fileUrl_toList _) rfl (by decide)
  have hone := Location.resource_file (w := w) hfile hto
  rw [Resource.ofFile, hsibling] at hone
  refine ⟨hone, Location.resources_one (.inr ?_) hone⟩
  exact Location.hasWildcard_fileUrl ((hasWildcard_slashed location).trans hwild)

theorem applyRelativePath_packageUrl {location : String} (hl : ∃ c ∈ location.toList, c ≠ '/')
    (name : String) (path : List String) :
    ∃ further, applyRelativePath (packagePrefix ++ name ++ "/" ++ renderRelative path) location =
        packagePrefix ++ (name ++ "/" ++ further) ∧ further ≠ "" ∧
      Resource.ofPackage name further =
        .ofPackage name (applyRelativePath (renderRelative path) location) := by
  obtain ⟨rest, hslashed, hnames, hne⟩ := slashed_rest hl
  rcases cut_cases (renderRelative path) with hcut | ⟨front, last, hcut, hlast⟩
  · refine ⟨rest, ?_, hne, ?_⟩
    · rw [applyRelativePath_cut hcut, hslashed]
      simp only [String.append_assoc]
    · rw [applyRelativePath_uncut hcut, Resource.ofPackage, Resource.ofPackage, relativeNames, hnames,
        relativeNames]
  · have hurl : packagePrefix ++ name ++ "/" ++ (front ++ "/" ++ last) =
        packagePrefix ++ (name ++ "/" ++ front) ++ "/" ++ last := by
      simp only [String.append_assoc]
    refine ⟨front ++ slashed location, ?_, ?_, ?_⟩
    · rw [hcut, hurl, applyRelativePath_cut hlast]
      simp only [String.append_assoc]
    · rw [hslashed]
      intro he
      have hnil := String.toList_eq_nil_iff.mpr he
      simp at hnil
    · rw [hcut, applyRelativePath_cut hlast]

/-- What a relative location names beside a resource is what the URL of the resource leads to with the
location in it, and nothing else. -/
theorem Resource.resource_beside {r : Resource} {location : String} (w : Workspace) (h : r.Placed)
    (hn : r.InNamedPackage) (hl : r.TakesBeside location) :
    ∃ url target, r.url = .ok url ∧ r.sibling location = .ok target ∧
      Location.resource w (applyRelativePath url location) = .ok target ∧
      Location.resources w (applyRelativePath url location) = .ok [target] := by
  cases h with
  | file hp =>
    obtain ⟨hone, hall⟩ := resource_beside_file (w := w) hp hl
    exact ⟨_, _, rfl, rfl, hone, hall⟩
  | @package name path hp =>
    obtain ⟨further, hurl, hne, hsame⟩ := applyRelativePath_packageUrl hl name path
    have hone := Location.resource_package (w := w) hn hne
    rw [← hurl, hsame] at hone
    refine ⟨_, _, rfl, rfl, hone, Location.resources_one (.inl ?_) hone⟩
    rw [hurl]
    exact Location.startsWith_packagePrefix _

theorem oddFolder_beside :
    let file := Resource.ofFile bareWorkspace "a%[b]/c.xml"
    let location := "//..//x: \u00e9/./y.xml"
    file.Placed ∧ file.InNamedPackage ∧ file.TakesBeside location ∧
      Location.resources bareWorkspace
          (applyRelativePath "file:///tmp/vfs/a%25%5Bb%5D/c.xml" location) =
        .ok [.ofFile bareWorkspace "x: \u00e9/y.xml"] := by
  have hplaced := placed_ofFile normal_bareWorkspace "a%[b]/c.xml"
  have htakes : (Resource.ofFile bareWorkspace "a%[b]/c.xml").TakesBeside "//..//x: \u00e9/./y.xml" :=
    ⟨by decide +kernel, ⟨by decide, by decide, by decide, noBreak_of_any (by decide)⟩, by decide⟩
  obtain ⟨url, target, hurl, htarget, -, hall⟩ :=
    Resource.resource_beside bareWorkspace hplaced trivial htakes
  have hencoded : (Resource.ofFile bareWorkspace "a%[b]/c.xml").url =
      .ok "file:///tmp/vfs/a%25%5Bb%5D/c.xml" := congrArg Except.ok (by decide +kernel)
  have hsibling : (Resource.ofFile bareWorkspace "a%[b]/c.xml").sibling "//..//x: \u00e9/./y.xml" =
      .ok (.ofFile bareWorkspace "x: \u00e9/y.xml") := congrArg Except.ok (by decide +kernel)
  obtain rfl := Except.ok.inj (hencoded.symm.trans hurl)
  obtain rfl := Except.ok.inj (hsibling.symm.trans htarget)
  exact ⟨hplaced, trivial, htakes, hall⟩

end BeanCatalog
