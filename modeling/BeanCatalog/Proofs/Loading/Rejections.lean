import BeanCatalog.Proofs.Loading.Blindness
import BeanCatalog.Proofs.Loading.Replay
import BeanCatalog.Proofs.Reading.Settings
import BeanCatalog.Proofs.Text.Tokens

namespace BeanCatalog

def Element.givenNames (e : Element) : List String :=
  (e.attr? "id").toList ++ Text.tokenize (e.attr "name")

theorem Element.attr?_ne_empty {e : Element} {name value : String} (h : e.attr? name = some value) :
    value ≠ "" := by
  unfold attr? at h
  split at h
  · cases h
  next hne =>
    rw [← Option.some.inj h]
    exact hne

theorem Reading.bind_congr {α β : Type} {act act' : Reading α} {s : Session} (next : α → Reading β)
    (h : act s = act' s) : (act >>= next) s = (act' >>= next) s := by
  change ExceptT.bindCont next (act s).1 (act s).2 = _
  rw [h]
  rfl

namespace Scope

variable {scope : Scope} {e : Element} {s t : Session}

theorem namesOf_enters (e : Element) (s : Session) : ∃ aliases, ∃ remarks : List Remark,
    Enters (namesOf e).run s (.ok (e.givenName, aliases)) s (remarks.map .remark) ∧
      (e.givenName :: aliases).filter (· ≠ "") = e.givenNames := by
  have hfilter : ∀ names : List String, (∀ name ∈ names, name ≠ "") → names.filter (· ≠ "") = names :=
    fun names h => List.filter_eq_self.mpr fun name hm => decide_eq_true (h name hm)
  have htokens : ∀ name ∈ Text.tokenize (e.attr "name"), name ≠ "" :=
    fun name hm => Text.tokenize_ne_empty hm
  unfold namesOf Element.givenName Element.givenNames
  dsimp only
  cases hid : e.attr? "id" with
  | some id =>
    refine ⟨_, [], fun _ => rfl, hfilter _ fun name hm => ?_⟩
    rcases List.mem_cons.mp hm with rfl | hm
    · exact Element.attr?_ne_empty hid
    · exact htokens name hm
  | none =>
    cases htok : Text.tokenize (e.attr "name") with
    | nil => exact ⟨[], [], fun _ => rfl, rfl⟩
    | cons name aliases =>
      refine ⟨aliases, [.namedByAlias name aliases], fun _ => rfl, ?_⟩
      rw [htok] at htokens
      exact hfilter _ htokens

/-- Why a bean is rejected, and the names that it keeps for itself all the same. -/
inductive Rejected (scope : Scope) (e : Element) (used : List String) : Fault → List String → Prop
  | unnamed (hn : e.givenNames = []) (hc : e.attr? "class" = none) : Rejected scope e used .unnamed []
  | nameInUse {name : String} (hn : e.givenNames ≠ [] ∨ e.attr? "class" ≠ none)
      (hf : e.givenNames.find? (used.contains ·) = some name) :
      Rejected scope e used (.nameInUse name) []
  | attributes {fault : Fault} (hn : e.givenNames ≠ [] ∨ e.attr? "class" ≠ none)
      (hf : e.givenNames.find? (used.contains ·) = none)
      (ha : scope.attributesOf e (e.attr? "class") e.givenName = .error fault) :
      Rejected scope e used fault e.givenNames

def complaint (scope : Scope) (fault : Fault) (e : Element) : List JournalEntry :=
  let p := scope.context.problem fault e
  [.problem .error p, .remark (.problem .error p.text)]

theorem error_enters (hr : scope.context.reporter = .collecting) (fault : Fault) (e : Element)
    (s : Session) :
    Enters (scope.context.error fault e).run s (.ok ()) s (scope.complaint fault e) := by
  intro entries
  unfold Context.error Context.report
  rw [hr]
  rfl

theorem error_collecting {fault : Fault} {u : Unit}
    (h : scope.context.error fault e none s = (.ok u, t)) : scope.context.reporter = .collecting := by
  unfold Context.error Context.report at h
  cases hr : scope.context.reporter with
  | collecting => rfl
  | failFast =>
    rw [hr] at h
    cases h
  | unable =>
    rw [hr] at h
    cases h

theorem collecting_of_error {fault : Fault} {α : Type} {next : Unit → Reading α} {a : α}
    (h : (scope.context.error fault e >>= next) s = (.ok a, t)) :
    scope.context.reporter = .collecting := by
  rcases he : scope.context.error fault e none s with ⟨f | u, v⟩
  · rw [Reading.bind_error _ he] at h
    cases h
  · exact error_collecting he

theorem givenNames_eq_nil_iff : e.givenNames = [] ↔ e.givenName = "" := by
  unfold Element.givenNames Element.givenName
  cases hid : e.attr? "id" with
  | some id => simpa using Element.attr?_ne_empty hid
  | none =>
    cases htok : Text.tokenize (e.attr "name") with
    | nil => simp
    | cons name aliases =>
      have hname : name ∈ Text.tokenize (e.attr "name") := by simp [htok]
      simpa using Text.tokenize_ne_empty hname

variable {names : List String}

theorem takeNames_free (hf : (names.filter (· ≠ "")).find? (s.usedNames.contains ·) = none) :
    scope.takeNames names e s =
      (.ok true, { s with usedNames := names.filter (· ≠ "") ++ s.usedNames }) := by
  unfold takeNames
  dsimp only
  rw [Reading.bind_ok _ (show (get : Reading Session) s = (.ok s, s) from rfl), hf]
  rfl

theorem takeNames_clash {name : String}
    (hf : (names.filter (· ≠ "")).find? (s.usedNames.contains ·) = some name) :
    scope.takeNames names e s = (do
      scope.context.error (.nameInUse name) e
      pure false : Reading Bool) s := by
  unfold takeNames
  dsimp only
  rw [Reading.bind_ok _ (show (get : Reading Session) s = (.ok s, s) from rfl), hf]

theorem parseDefinition_none {name : String} {aliases : List String}
    (h : scope.parseDefinition e name aliases s = (.ok none, t)) :
    scope.context.reporter = .collecting ∧
      ∃ fault, scope.attributesOf e (e.attr? "class") name = .error fault := by
  unfold parseDefinition at h
  cases ha : scope.attributesOf e (e.attr? "class") name with
  | error fault =>
    rw [ha] at h
    exact ⟨collecting_of_error h, fault, rfl⟩
  | ok d =>
    rw [ha] at h
    have hgives : Reading.Gives (e.children.foldlM scope.addChild d >>= fun d => do
        let registry := (← get).registry
        let name := if name = "" then freeName registry ((e.attr? "class").getD "") else name
        pure (some ⟨name, d, aliases⟩)) fun o : Option Holder => o ≠ none :=
      .bind (.any _) fun d _ => .bind (.any _) fun _ _ => .pure (Option.some_ne_none _)
    exact absurd rfl (hgives _ _ _ h)

theorem parseBean_nameless (scope : Scope) (hn : e.givenNames = []) (hc : e.attr? "class" = none) :
    ∃ remarks : List Remark, ∀ entries, scope.parseBean e { s with entries := entries } = (do
        scope.context.error .unnamed e
        pure none : Reading (Option Holder))
      { s with entries := (remarks.map JournalEntry.remark).reverse ++ entries } := by
  obtain ⟨aliases, remarks, hnames, hgiven⟩ := namesOf_enters e s
  rw [givenNames_eq_nil_iff.mp hn] at hnames
  exact ⟨remarks, fun entries => parseBean_unnamed (hnames entries) hc⟩

theorem parseBean_clash (scope : Scope) {name : String}
    (hn : e.givenNames ≠ [] ∨ e.attr? "class" ≠ none)
    (hf : e.givenNames.find? (s.usedNames.contains ·) = some name) :
    ∃ remarks : List Remark, ∀ entries, scope.parseBean e { s with entries := entries } = (do
        scope.context.error (.nameInUse name) e
        pure none : Reading (Option Holder))
      { s with entries := (remarks.map JournalEntry.remark).reverse ++ entries } := by
  obtain ⟨aliases, remarks, hnames, hgiven⟩ := namesOf_enters e s
  refine ⟨remarks, fun entries => ?_⟩
  let u : Session := { s with entries := (remarks.map JournalEntry.remark).reverse ++ entries }
  rw [parseBean_named (hnames entries) (hn.imp_left (mt givenNames_eq_nil_iff.mpr))]
  rw [← hgiven] at hf
  refine (Reading.bind_congr _ (takeNames_clash (s := u) hf)).trans ?_
  rw [bind_assoc]
  rfl

theorem parseBean_free (scope : Scope) (hn : e.givenNames ≠ [] ∨ e.attr? "class" ≠ none)
    (hf : e.givenNames.find? (s.usedNames.contains ·) = none) :
    ∃ aliases, ∃ remarks : List Remark, ∀ entries,
      scope.parseBean e { s with entries := entries } =
        scope.parseDefinition e e.givenName aliases
          { s with
            entries := (remarks.map JournalEntry.remark).reverse ++ entries
            usedNames := e.givenNames ++ s.usedNames } := by
  obtain ⟨aliases, remarks, hnames, hgiven⟩ := namesOf_enters e s
  refine ⟨aliases, remarks, fun entries => ?_⟩
  let u : Session := { s with entries := (remarks.map JournalEntry.remark).reverse ++ entries }
  rw [parseBean_named (hnames entries) (hn.imp_left (mt givenNames_eq_nil_iff.mpr))]
  rw [← hgiven] at hf ⊢
  exact Reading.bind_ok _ (takeNames_free (s := u) hf)

theorem Rejected.enters {fault : Fault} {taken : List String}
    (hr : scope.context.reporter = .collecting) (h : Rejected scope e s.usedNames fault taken) :
    ∃ remarks : List Remark, Enters (scope.parseBean e).run s (.ok none)
      { s with usedNames := taken ++ s.usedNames } (remarks.map .remark ++ scope.complaint fault e) := by
  have herror : ∀ fault, ∀ s : Session, (do
        scope.context.error fault e
        pure none : Reading (Option Holder)) s =
      (.ok none, { s with entries := (scope.complaint fault e).reverse ++ s.entries }) :=
    fun fault s => Reading.bind_ok _ (error_enters hr fault e s s.entries)
  cases h with
  | unnamed hn hc =>
    obtain ⟨remarks, hparsed⟩ := parseBean_nameless (s := s) scope hn hc
    refine ⟨remarks, fun entries => ?_⟩
    rw [List.reverse_append, List.append_assoc]
    exact (hparsed entries).trans (herror _ _)
  | nameInUse hn hf =>
    obtain ⟨remarks, hparsed⟩ := parseBean_clash scope hn hf
    refine ⟨remarks, fun entries => ?_⟩
    rw [List.reverse_append, List.append_assoc]
    exact (hparsed entries).trans (herror _ _)
  | attributes hn hf ha =>
    obtain ⟨aliases, remarks, hparsed⟩ := parseBean_free scope hn hf
    refine ⟨remarks, fun entries => ?_⟩
    rw [List.reverse_append, List.append_assoc]
    refine (hparsed entries).trans ?_
    unfold parseDefinition
    rw [ha]
    exact herror _ _

theorem parseBean_rejected (h : scope.parseBean e s = (.ok none, t)) :
    scope.context.reporter = .collecting ∧
      ∃ fault taken, Rejected scope e s.usedNames fault taken := by
  by_cases hn : e.givenNames ≠ [] ∨ e.attr? "class" ≠ none
  · cases hf : e.givenNames.find? (s.usedNames.contains ·) with
    | some name =>
      obtain ⟨remarks, hparsed⟩ := parseBean_clash scope hn hf
      exact ⟨collecting_of_error ((hparsed s.entries).symm.trans h), _, _, .nameInUse hn hf⟩
    | none =>
      obtain ⟨aliases, remarks, hparsed⟩ := parseBean_free scope hn hf
      obtain ⟨hr, fault, ha⟩ := parseDefinition_none ((hparsed s.entries).symm.trans h)
      exact ⟨hr, fault, _, .attributes hn hf ha⟩
  · rw [not_or, not_not, not_not] at hn
    obtain ⟨remarks, hparsed⟩ := parseBean_nameless (s := s) scope hn.1 hn.2
    exact ⟨collecting_of_error ((hparsed s.entries).symm.trans h), _, _, .unnamed hn.1 hn.2⟩

theorem attributesOf_fault {className : Option String} {name : String} {fault : Fault}
    (h : scope.attributesOf e className name = .error fault) : ∀ used, fault ≠ .nameInUse used := by
  unfold attributesOf at h
  dsimp only at h
  split at h
  · cases h
    nofun
  split at h
  · cases h
    nofun
  · cases h

end Scope

namespace Reading

variable {α : Type} {act : Reading α} {s : Session} {o : Except Failure α}

def Shows (act : Reading α) (s : Session) (o : Except Failure α)
    (problems : List (Severity × Problem)) : Prop :=
  ∃ journal t, act s = (o, t) ∧ s.Entered journal t ∧ problemsIn journal = problems

theorem shows_of_enters {t : Session} {journal : List JournalEntry} (h : Enters act.run s o t journal) :
    Shows act s o (problemsIn journal) :=
  ⟨journal, _, h s.entries, rfl, rfl⟩

theorem Shows.unique {problems problems' : List (Severity × Problem)} {o' : Except Failure α}
    (h : Shows act s o problems) (h' : Shows act s o' problems') : problems = problems' := by
  obtain ⟨journal, t, ha, hj, rfl⟩ := h
  obtain ⟨journal', t', ha', hj', rfl⟩ := h'
  obtain ⟨-, rfl⟩ := Prod.mk.inj (ha.symm.trans ha')
  rw [hj.unique hj']

theorem Blind.shows_iff (ha : Blind act) (entries : List JournalEntry)
    (problems : List (Severity × Problem)) :
    Shows act { s with entries := entries } o problems ↔ Shows act s o problems := by
  obtain ⟨o', t, journal, -, -, hact, -⟩ := ha s
  have hhere : act s = (o', { t with entries := journal.reverse ++ s.entries }) := hact s.entries
  have hthere : act { s with entries := entries } =
    (o', { t with entries := journal.reverse ++ entries }) := hact entries
  have hshown : ∀ u : Session, act u = (o', { t with entries := journal.reverse ++ u.entries }) →
      (Shows act u o problems ↔ o = o' ∧ problemsIn journal = problems) := by
    intro u hu
    have hu' : Shows act u o' (problemsIn journal) := ⟨journal, _, hu, rfl, rfl⟩
    constructor
    · intro h
      obtain ⟨journal', v, hv, -⟩ := id h
      obtain ⟨rfl, -⟩ := Prod.mk.inj (hu.symm.trans hv)
      exact ⟨rfl, hu'.unique h⟩
    · rintro ⟨rfl, rfl⟩
      exact hu'
  exact (hshown _ hthere).trans (hshown _ hhere).symm

theorem Blind.mapM {β : Type} {step : β → Reading α} (h : ∀ b, Blind (step b)) (bs : List β) :
    Blind (bs.mapM step) := by
  induction bs with
  | nil => exact .pure []
  | cons b bs ih =>
    rw [List.mapM_cons]
    exact .bind (h b) fun a => .bind ih fun as => .pure _

end Reading

namespace Scope

variable {scope : Scope} {e : Element} {s t : Session}

theorem parseBean_blind (e : Element) : (scope.parseBean e).Blind :=
  (scope.context.steps_blind scope.context.importer).parseBean scope.defaults e

theorem Rejected.shows {fault : Fault} {taken : List String}
    (hr : scope.context.reporter = .collecting) (h : Rejected scope e s.usedNames fault taken) :
    ([e].mapM scope.parseBean).Shows s (.ok [none])
      [(.error, scope.context.problem fault e)] := by
  obtain ⟨remarks, henters⟩ := h.enters hr
  have hone : Enters ([e].mapM scope.parseBean).run s (.ok [none])
      { s with usedNames := taken ++ s.usedNames }
      (remarks.map .remark ++ scope.complaint fault e) := fun entries =>
    Reading.bind_ok _ (henters entries)
  have hshows := Reading.shows_of_enters hone
  rw [problemsIn_append, problemsIn_remarks] at hshows
  exact hshows

theorem Rejected.again (scope : Scope) (used : List String) (hn : e.givenNames ≠ []) :
    ∃ name, Rejected scope e (e.givenNames ++ used) (.nameInUse name) [] := by
  obtain ⟨name, names, hnames⟩ := List.exists_cons_of_ne_nil hn
  refine ⟨name, .nameInUse (.inl hn) ?_⟩
  simp [hnames]

/-- A rejected bean leaves its scope as it was if and only if it gives itself no name or one that was
taken already. -/
theorem rejected_leaves_scope_iff (h : scope.parseBean e s = (.ok none, t)) :
    (∀ later : List Element, ∀ o problems, (later.mapM scope.parseBean).Shows s o problems ↔
        (later.mapM scope.parseBean).Shows t o problems) ↔
      e.givenNames = [] ∨ ∃ name ∈ e.givenNames, name ∈ s.usedNames := by
  obtain ⟨hr, fault, taken, hrejected⟩ := parseBean_rejected h
  obtain ⟨remarks, henters⟩ := hrejected.enters hr
  obtain ⟨-, rfl⟩ := Prod.mk.inj (h.symm.trans (henters s.entries))
  have hshows := hrejected.shows hr
  have hblind : ∀ later : List Element, (later.mapM scope.parseBean).Blind := fun later =>
    .mapM parseBean_blind later
  constructor
  · intro hsame
    by_contra hnames
    rw [not_or] at hnames
    cases hrejected with
    | unnamed hn => exact hnames.1 hn
    | @nameInUse name hn hf =>
      have hused : s.usedNames.contains name = true := List.find?_some hf
      exact hnames.2 ⟨name, List.mem_of_find?_eq_some hf, List.contains_iff_mem.mp hused⟩
    | attributes hn hf ha =>
      -- the bean itself shows the difference when it comes again
      obtain ⟨name, hagain⟩ := Rejected.again scope s.usedNames hnames.1
      have hproblems := ((hsame [e] _ _).mp hshows).unique (Rejected.shows hr hagain)
      have hfault : fault = .nameInUse name := by
        simpa [Context.problem] using hproblems
      exact attributesOf_fault ha name hfault
  · intro hnames later o problems
    have htaken : taken = [] := by
      cases hrejected with
      | unnamed => rfl
      | nameInUse => rfl
      | attributes hn hf ha =>
        rcases hnames with hnil | ⟨name, hm, hu⟩
        · exact hnil
        · rw [List.find?_eq_none] at hf
          exact absurd (List.contains_iff_mem.mpr hu) (hf name hm)
    subst htaken
    -- but for what has been entered the sessions are the same
    exact ((hblind later).shows_iff _ problems).symm

end Scope

def lazyBean (lazyInit : String) : Element :=
  ⟨"bean", none, [("id", "a"), ("class", "A"), ("lazy-init", lazyInit)], [], some 1⟩

def topScope : Scope := ⟨pairLoader.context (pairLoader.importer 0) (.bytes [] none), []⟩

theorem lazyBean_givenNames (lazyInit : String) : (lazyBean lazyInit).givenNames = ["a"] := by
  have hnone : Text.tokenize "" = [] := by decide +kernel
  change ["a"] ++ Text.tokenize "" = _
  rw [hnone]
  rfl

theorem takenName_leaves_scope : ∃ t,
    topScope.parseBean (lazyBean "maybe") { usedNames := ["a"] } = (.ok none, t) ∧
      ∀ later : List Element, ∀ o problems,
        (later.mapM topScope.parseBean).Shows { usedNames := ["a"] } o problems ↔
          (later.mapM topScope.parseBean).Shows t o problems := by
  have hnames := lazyBean_givenNames "maybe"
  have hfound : (lazyBean "maybe").givenNames.find? (["a"].contains ·) = some "a" := by
    rw [hnames]
    rfl
  have hrejected : topScope.Rejected (lazyBean "maybe") ["a"] (.nameInUse "a") [] :=
    .nameInUse (.inl (by rw [hnames]; nofun)) hfound
  obtain ⟨remarks, henters⟩ := hrejected.enters (s := { usedNames := ["a"] }) rfl
  refine ⟨_, henters [], ?_⟩
  refine (Scope.rejected_leaves_scope_iff (henters [])).mpr (.inr ⟨"a", ?_, List.mem_singleton_self _⟩)
  rw [hnames]
  exact List.mem_singleton_self _

theorem rejectedBean_keeps_name : ∃ t, topScope.parseBean (lazyBean "maybe") {} = (.ok none, t) ∧
    ([lazyBean "true"].mapM topScope.parseBean).Shows t (.ok [none])
        [(.error, topScope.context.problem (.nameInUse "a") (lazyBean "true"))] ∧
      ∀ problems, ¬ ([lazyBean "true"].mapM topScope.parseBean).Shows {} (.ok [none]) problems := by
  have hrejected : topScope.Rejected (lazyBean "maybe") [] (.invalidLazyInit "maybe")
      (lazyBean "maybe").givenNames :=
    .attributes (.inl (by rw [lazyBean_givenNames]; nofun)) (by rw [lazyBean_givenNames]; rfl)
      rfl
  obtain ⟨remarks, henters⟩ := hrejected.enters (s := {}) rfl
  have hclash : topScope.Rejected (lazyBean "true") ((lazyBean "maybe").givenNames ++ [])
      (.nameInUse "a") [] := by
    refine .nameInUse (.inl (by rw [lazyBean_givenNames]; nofun)) ?_
    rw [lazyBean_givenNames, lazyBean_givenNames]
    rfl
  refine ⟨_, henters [], Scope.Rejected.shows rfl hclash, ?_⟩
  rintro problems ⟨journal, t, ht, -⟩
  have hparsed : ((([lazyBean "true"].mapM topScope.parseBean) {}).1.toOption.getD []).map
      Option.isSome = [true] := by
    decide +kernel
  rw [ht] at hparsed
  cases hparsed

end BeanCatalog
