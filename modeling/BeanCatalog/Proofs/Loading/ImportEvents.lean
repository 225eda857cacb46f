import BeanCatalog.Proofs.Loading.Levels
import BeanCatalog.Proofs.Loading.Replay
import BeanCatalog.Xml.Document

namespace BeanCatalog

/-- Loads of resources one after the other, up to the first failure, with how each of them ended. -/
inductive Importer.Loads (importer : Importer) :
    Session → List (Resource × Except Failure Nat) → Session → Prop
  | none (s : Session) : Loads importer s [] s
  | failed {r : Resource} {f : Failure} {s t : Session}
      (h : importer.loadResource r s = (.error f, t)) : Loads importer s [(r, .error f)] t
  | next {r : Resource} {n : Nat} {rest : List (Resource × Except Failure Nat)} {s t u : Session}
      (h : importer.loadResource r s = (.ok n, t)) (hrest : Loads importer t rest u) :
      Loads importer s ((r, .ok n) :: rest) u

/-- The resources that were loaded to the end, in the order in which that came. -/
def completed (loads : List (Resource × Except Failure Nat)) : List Resource :=
  (loads.filter (·.2.toBool)).map (·.1)

def loadFailure? (loads : List (Resource × Except Failure Nat)) : Option Failure :=
  loads.findSome? fun
    | (_, .error f) => some f
    | (_, .ok _) => none

def firsts : List Resource → List Resource
  | [] => []
  | r :: rs => r :: (firsts rs).filter (!r.same ·)

def LoadsNamed (loads : List (Resource × Except Failure Nat)) :
    Except Failure (List Resource) → Prop
  | .error _ => loads = []
  | .ok rs => loads.map (·.1) <+: rs ∧ (loadFailure? loads = none → loads.map (·.1) = rs)

/-- What first went wrong with an import: it names nothing, or something it names does not load. -/
def importFailure? (loads : List (Resource × Except Failure Nat)) :
    Except Failure (List Resource) → Option Failure
  | .error f => some f
  | .ok _ => loadFailure? loads

def Context.importProblem? (ctx : Context) (e : Element) (location : String)
    (failure : Option Failure) (resources : List Resource) : Option (Severity × Problem) :=
  let kind := LocationKind.of location
  match failure with
  | some f => some (.error, ctx.problem (kind.fault location f) e (some f))
  | none =>
    if resources = [] then some (.warning, ctx.problem (.nothingFound kind location) e) else none

namespace Resource

theorem same_comm (p q : Resource) : p.same q = q.same p := by
  cases p <;> cases q <;> simp only [same] <;> grind

theorem same_trans {p q r : Resource} (hpq : p.same q = true) (hqr : q.same r = true) :
    p.same r = true := by
  cases p <;> cases q <;> simp only [same] at hpq <;> cases r <;> simp only [same] at hqr ⊢ <;>
    grind

end Resource

theorem firsts_distinct (rs : List Resource) :
    (firsts rs).Pairwise fun p q => p.same q = false := by
  induction rs with
  | nil => exact .nil
  | cons r rs ih =>
    refine .cons (fun q hq => ?_) (ih.filter _)
    simpa using (List.mem_filter.mp hq).2

theorem firsts_further (loaded : List Resource) (r : Resource) (rs : List Resource) :
    (if loaded.any r.same then loaded else loaded ++ [r]) ++
        (firsts rs).filter (fun q =>
          !(if loaded.any r.same then loaded else loaded ++ [r]).any q.same) =
      loaded ++ (firsts (r :: rs)).filter fun q => !loaded.any q.same := by
  rw [firsts, List.filter_cons, List.filter_filter]
  by_cases hr : loaded.any r.same = true
  · -- What is the same as `r` is in the list already, so leaving out `r` leaves out nothing more.
    simp only [hr, if_true, Bool.not_true, Bool.false_eq_true, if_false]
    congr 1
    apply List.filter_congr
    intro q _
    obtain ⟨p, hp, hrp⟩ := List.any_eq_true.mp hr
    by_cases hq : r.same q = true
    · have hany : loaded.any q.same = true :=
        List.any_eq_true.mpr ⟨p, hp, Resource.same_trans (r.same_comm q ▸ hq) hrp⟩
      rw [hany, hq]
      rfl
    · rw [Bool.not_eq_true] at hq
      rw [hq, Bool.not_false, Bool.and_true]
  · rw [Bool.not_eq_true] at hr
    simp only [hr, Bool.false_eq_true, if_false, Bool.not_false, if_true, List.append_assoc,
      List.cons_append, List.nil_append]
    congr 2
    apply List.filter_congr
    intro q _
    simp [Resource.same_comm q r]

section

variable {act : Reading Nat} {loaded : List Resource} {next : Nat → StateM Session LoadOutcome}
  {s t : Session}

theorem loadThen_apply : loadThen act loaded next s =
    (match (act s).1 with
      | .error f => pure (.error f, loaded)
      | .ok n => next n : StateM Session LoadOutcome) (act s).2 := rfl

theorem loadThen_error {f : Failure} (h : act s = (.error f, t)) :
    loadThen act loaded next s = ((.error f, loaded), t) := by
  rw [loadThen_apply, h]
  rfl

theorem loadThen_ok {n : Nat} (h : act s = (.ok n, t)) :
    loadThen act loaded next s = next n t := by
  rw [loadThen_apply, h]

theorem concludeLoads_error {location : String} {act : StateM Session LoadOutcome} {f : Failure}
    (h : act s = ((.error f, loaded), t)) :
    concludeLoads location act s = ((.error f, loaded), t) := by
  simp only [concludeLoads, bind, StateT.bind, h]
  rfl

theorem concludeLoads_ok {location : String} {act : StateM Session LoadOutcome} {n : Nat}
    (h : act s = ((.ok n, loaded), t)) :
    concludeLoads location act s = ((.ok n, loaded),
      { t with entries := .remark (.loaded n location) :: t.entries }) := by
  simp only [concludeLoads, bind, StateT.bind, h]
  rfl

end

namespace Loader

variable {l : Loader} {depth : Nat} {r : Resource} {s t : Session} {o : Except Failure Nat}

inductive LoadsAll (loads : List (Resource × Except Failure Nat)) (rs : List Resource) :
    Except Failure Nat → Prop
  | ok {n : Nat} (hf : loadFailure? loads = none) (hm : loads.map (·.1) = rs) :
      LoadsAll loads rs (.ok n)
  | error {f : Failure} (hf : loadFailure? loads = some f) (hm : loads.map (·.1) <+: rs) :
      LoadsAll loads rs (.error f)

theorem LoadsAll.next {loads : List (Resource × Except Failure Nat)} {rs : List Resource} {n : Nat}
    (h : LoadsAll loads rs o) (r : Resource) : LoadsAll ((r, .ok n) :: loads) (r :: rs) o := by
  cases h with
  | ok hf hm => exact .ok hf (congrArg (r :: ·) hm)
  | error hf hm => exact .error hf ((List.prefix_cons_inj r).mpr hm)

theorem loadAll_loads {count : Nat} {loaded loaded' rs : List Resource}
    (h : l.loadAll (l.importer depth) count loaded rs s = ((o, loaded'), t)) :
    ∃ loads, (l.importer (depth + 1)).Loads s loads t ∧ LoadsAll loads rs o ∧
      loaded' = loaded ++ (firsts (completed loads)).filter fun q => !loaded.any q.same := by
  induction rs generalizing count loaded s with
  | nil =>
    cases h
    exact ⟨[], .none _, .ok rfl rfl, (List.append_nil _).symm⟩
  | cons r rs ih =>
    change loadThen (l.loadResource (l.importer depth) r) loaded _ s = _ at h
    rcases hr : l.loadResource (l.importer depth) r s with ⟨f | n, u⟩
    · rw [loadThen_error hr] at h
      cases h
      refine ⟨[(r, .error f)], .failed hr, .error rfl ?_, (List.append_nil _).symm⟩
      exact (List.prefix_cons_inj r).mpr List.nil_prefix
    · rw [loadThen_ok hr] at h
      obtain ⟨loads, hloads, hall, rfl⟩ := ih h
      exact ⟨(r, .ok n) :: loads, .next hr hloads, hall.next r, firsts_further loaded r _⟩

def LoadsWhole (loads : List (Resource × Except Failure Nat)) (o : Except Failure Nat) :
    Except Failure (List Resource) → Prop
  | .error f => loads = [] ∧ o = .error f
  | .ok rs => LoadsAll loads rs o

theorem loadLocation_loads {location : String} {loaded : List Resource}
    (h : l.loadLocation (l.importer depth) location [] s = ((o, loaded), t)) :
    ∃ loads u remarks, (l.importer (depth + 1)).Loads s loads u ∧
      u.Entered (List.map JournalEntry.remark remarks) t ∧ loaded = firsts (completed loads) ∧
      LoadsWhole loads o (Location.resources l.workspace location) := by
  unfold Loader.loadLocation at h
  cases hn : Location.resources l.workspace location with
  | error f =>
    rw [hn] at h
    cases h
    exact ⟨[], _, [], .none _, .refl _, rfl, rfl, rfl⟩
  | ok rs =>
    rw [hn] at h
    change concludeLoads location (l.loadAll (l.importer depth) 0 [] rs) s = _ at h
    rcases ha : l.loadAll (l.importer depth) 0 [] rs s with ⟨⟨o', loaded'⟩, u⟩
    obtain ⟨loads, hloads, hall, rfl⟩ := loadAll_loads ha
    have hfirsts : [] ++ (firsts (completed loads)).filter
        (fun q => !([] : List Resource).any q.same) = firsts (completed loads) := by simp
    rw [hfirsts] at ha
    cases o' with
    | error f =>
      rw [concludeLoads_error ha] at h
      cases h
      exact ⟨loads, _, [], hloads, .refl _, rfl, hall⟩
    | ok n =>
      rw [concludeLoads_ok ha] at h
      cases h
      exact ⟨loads, _, [.loaded n location], hloads, rfl, rfl, hall⟩

theorem loadNamed_loads {location : String} {kind : LocationKind} {loaded : List Resource}
    (h : (l.context (l.importer depth) r).loadNamed location kind s = ((o, loaded), t)) :
    ∃ loads u remarks, (l.importer depth).Loads s loads u ∧
      u.Entered (List.map JournalEntry.remark remarks) t ∧ loaded = firsts (completed loads) ∧
      (o = .error .exhausted ∨ LoadsWhole loads o (r.named l.workspace location kind)) := by
  rcases l.loadNamed_cases (l.importer depth) r location kind with
    ⟨place, hn, hl⟩ | ⟨q, hn, hl⟩ | ⟨f, hn, -, hl⟩
  · rw [hl] at h
    rw [hn]
    cases depth with
    | zero =>
      cases h
      exact ⟨[], _, [], .none _, .refl _, rfl, .inl rfl⟩
    | succ depth =>
      obtain ⟨loads, u, remarks, hloads, hremarks, hloaded, hwhole⟩ := loadLocation_loads h
      exact ⟨loads, u, remarks, hloads, hremarks, hloaded, .inr hwhole⟩
  · rw [hl] at h
    rw [hn]
    rcases hq : (l.importer depth).loadResource q s with ⟨f | n, u⟩
    · rw [hq] at h
      cases h
      exact ⟨[(q, .error f)], _, [], .failed hq, .refl _, rfl,
        .inr (.error rfl (List.prefix_refl _))⟩
    · rw [hq] at h
      cases h
      exact ⟨[(q, .ok n)], _, [], .next hq (.none _), .refl _, rfl, .inr (.ok rfl rfl)⟩
  · rw [hl] at h
    rw [hn]
    cases h
    exact ⟨[], _, [], .none _, .refl _, rfl, .inr ⟨rfl, rfl⟩⟩

theorem LoadsWhole.named {loads : List (Resource × Except Failure Nat)}
    {named : Except Failure (List Resource)} (h : LoadsWhole loads o named) :
    LoadsNamed loads named := by
  cases named with
  | error f => exact h.1
  | ok rs =>
    cases h with
    | ok _ hm => exact ⟨hm ▸ List.prefix_refl _, fun _ => hm⟩
    | error hf hm => exact ⟨hm, fun hn => absurd (hf.symm.trans hn) nofun⟩

theorem LoadsWhole.failure_ok {loads : List (Resource × Except Failure Nat)} {n : Nat}
    {named : Except Failure (List Resource)} (h : LoadsWhole loads (.ok n) named) :
    importFailure? loads named = none := by
  cases named with
  | error f => cases h.2
  | ok rs => cases h with
    | ok hf _ => exact hf

theorem LoadsWhole.failure_error {loads : List (Resource × Except Failure Nat)} {f : Failure}
    {named : Except Failure (List Resource)} (h : LoadsWhole loads (.error f) named) :
    importFailure? loads named = some f := by
  cases named with
  | error g =>
    cases h.2
    rfl
  | ok rs => cases h with
    | error hf _ => exact hf

end Loader

namespace Context

variable {ctx : Context} {e : Element} {location : String} {s : Session}

structure EndsTelling (ctx : Context) (e : Element) (location : String) (failure : Option Failure)
    (resources : List Resource) (own : List JournalEntry) : Prop where
  problem : problemsIn own = (ctx.importProblem? e location failure resources).toList
  event : eventsOf own =
    if ctx.listening then [.imported location resources (ctx.source e)] else []

theorem fire_enters (ctx : Context) (event : Event) (s : Session) :
    ∃ fired t, ctx.fire event s = (.ok (), t) ∧ s.Entered fired t ∧ problemsIn fired = [] ∧
      eventsOf fired = if ctx.listening then [event] else [] := by
  unfold fire
  cases ctx.listening with
  | true => exact ⟨[.event event], _, rfl, rfl, rfl, rfl⟩
  | false => exact ⟨[], s, rfl, .refl s, rfl, rfl⟩

theorem fire_tells {failure : Option Failure} {loaded : List Resource} {act : Reading Unit}
    {t : Session} (told : List JournalEntry) (ha : act s = (.ok (), t))
    (ht : s.Entered told t) (hevents : eventsOf told = [])
    (hproblems : problemsIn told = (ctx.importProblem? e location failure loaded).toList) :
    ∃ own u, (do act; ctx.fire (.imported location loaded (ctx.source e))) s = (.ok (), u) ∧
      s.Entered own u ∧ ctx.EndsTelling e location failure loaded own := by
  obtain ⟨fired, u, hu, hfired, hnone, hevent⟩ :=
    ctx.fire_enters (.imported location loaded (ctx.source e)) t
  refine ⟨told ++ fired, u, (Reading.bind_ok _ ha).trans hu, ht.trans hfired, ?_, ?_⟩
  · rw [problemsIn_append, hnone, List.append_nil, hproblems]
  · rw [eventsOf_append, hevents, List.nil_append, hevent]

variable (e location) in
theorem endImport_ok_tells (hr : ctx.reporter ≠ .unable) (count : Nat)
    (loaded : List Resource) :
    ∃ own t, ctx.endImport e location (.ok count, loaded) s = (.ok (), t) ∧ s.Entered own t ∧
      ctx.EndsTelling e location none loaded own := by
  let first : JournalEntry := .remark (.imported count (.of location) location)
  cases loaded with
  | nil =>
    let p := ctx.problem (.nothingFound (.of location) location) e
    let told := [first, .problem .warning p, .remark (.problem .warning p.text)]
    have htold : (do
          Reading.remark (.imported count (.of location) location)
          ctx.warning (.nothingFound (.of location) location) e : Reading Unit) s =
        (.ok (), { s with entries := told.reverse ++ s.entries }) := by
      unfold warning report
      cases hreporter : ctx.reporter with
      | unable => exact absurd hreporter hr
      | collecting | failFast => rfl
    exact fire_tells told htold rfl rfl rfl
  | cons r rs => exact fire_tells [first] rfl rfl rfl rfl

theorem endImport_error_tells (hr : ctx.reporter = .collecting) {f : Failure}
    (hc : (LocationKind.of location).contains f = true) (loaded : List Resource) :
    ∃ own t, ctx.endImport e location (.error f, loaded) s = (.ok (), t) ∧ s.Entered own t ∧
      ctx.EndsTelling e location (some f) loaded own := by
  let p := ctx.problem ((LocationKind.of location).fault location f) e (some f)
  have herror : ctx.error ((LocationKind.of location).fault location f) e (some f) =
      Reporter.collecting.take .error p := by
    rw [error, report, hr]
    rfl
  rw [endImport_contained hc, herror]
  exact fire_tells [.problem .error p, .remark (.problem .error p.text)] rfl rfl rfl rfl

end Context

/-- How an import element has ended, by the loads that it made and what else it entered. -/
inductive Context.ImportTold (ctx : Context) (e : Element)
    (loads : List (Resource × Except Failure Nat)) (own : List JournalEntry) :
    Except Failure Unit → Prop
  /-- It names nothing. -/
  | blank (hb : Text.allBlank (e.attr "resource") = true) (hn : loads = [])
      (hp : problemsIn own = [(.error, ctx.problem .emptyLocation e)]) (he : eventsOf own = []) :
      ImportTold ctx e loads own (.ok ())
  /-- A failure goes on that is not for the element to report. -/
  | raised {f : Failure} (hb : Text.allBlank (e.attr "resource") = false)
      (hf : ∀ location, ctx.environment.resolveRequired (e.attr "resource") = .ok location →
        (LocationKind.of location).contains f = false)
      (hp : problemsIn own = []) (he : eventsOf own = []) : ImportTold ctx e loads own (.error f)
  /-- It has loaded what it names, or reported why not, and its event is fired. -/
  | fired {location : String} {resources : List Resource}
      (hl : ctx.environment.resolveRequired (e.attr "resource") = .ok location)
      (he : eventsOf own =
        if ctx.listening then [.imported location resources (ctx.source e)] else [])
      (hn : LoadsNamed loads (ctx.resource.named ctx.workspace location (.of location)))
      (hc : resources = firsts (completed loads))
      (hd : resources.Pairwise fun p q => p.same q = false)
      (hp : problemsIn own = (ctx.importProblem? e location
        (importFailure? loads (ctx.resource.named ctx.workspace location (.of location)))
        resources).toList)
      (hone : resources = [] → (problemsIn own).length = 1) : ImportTold ctx e loads own (.ok ())

theorem Context.importProblem_empty (ctx : Context) (e : Element) (location : String)
    (failure : Option Failure) : ∃ p, ctx.importProblem? e location failure [] = some p := by
  cases failure with
  | some f => exact ⟨_, rfl⟩
  | none => exact ⟨_, rfl⟩

namespace Context

variable {ctx : Context} {e : Element} {loads : List (Resource × Except Failure Nat)}
  {own : List JournalEntry}

theorem ImportTold.problem_le {outcome : Except Failure Unit}
    (h : ctx.ImportTold e loads own outcome) : (problemsIn own).length ≤ 1 := by
  cases h with
  | blank _ _ hp => rw [hp]; rfl
  | raised _ _ hp => rw [hp]; exact Nat.zero_le 1
  | fired _ _ _ _ _ hp => rw [hp]; exact Option.length_toList_le

theorem EndsTelling.told {location : String} {failure : Option Failure}
    (h : ctx.EndsTelling e location failure (firsts (completed loads)) own)
    (hl : ctx.environment.resolveRequired (e.attr "resource") = .ok location)
    (hn : LoadsNamed loads (ctx.resource.named ctx.workspace location (.of location)))
    (hf : importFailure? loads (ctx.resource.named ctx.workspace location (.of location)) = failure)
    (remarks : List Remark) :
    ctx.ImportTold e loads (remarks.map JournalEntry.remark ++ own) (.ok ()) := by
  have hproblem : problemsIn (remarks.map JournalEntry.remark ++ own) =
      (ctx.importProblem? e location failure (firsts (completed loads))).toList := by
    rw [problemsIn_append, problemsIn_remarks]
    exact h.problem
  refine .fired hl ?_ hn rfl (firsts_distinct _) (hf ▸ hproblem) fun hnone => ?_
  · rw [eventsOf_append, eventsOf_remarks]
    exact h.event
  · obtain ⟨p, hp⟩ := ctx.importProblem_empty e location failure
    rw [hproblem, hnone, hp]
    rfl

end Context

namespace Context

variable {ctx : Context} {e : Element} {location : String} {t : Session}

theorem blank_told (hr : ctx.reporter = .collecting)
    (hb : Text.allBlank (e.attr "resource") = true) (s : Session) :
    ∃ own, s.Entered own (ctx.error .emptyLocation e none s).2 ∧
      ctx.ImportTold e [] own (ctx.error .emptyLocation e none s).1 := by
  let p := ctx.problem .emptyLocation e
  unfold error report
  rw [hr]
  exact ⟨[.problem .error p, .remark (.problem .error p.text)], rfl, .blank hb rfl rfl rfl⟩

theorem endImport_told (hr : ctx.reporter = .collecting)
    (hb : Text.allBlank (e.attr "resource") = false)
    (hplace : ctx.environment.resolveRequired (e.attr "resource") = .ok location)
    {loads : List (Resource × Except Failure Nat)} {o : Except Failure Nat}
    (hwhole : o = .error .exhausted ∨
      Loader.LoadsWhole loads o (ctx.resource.named ctx.workspace location (.of location)))
    (remarks : List Remark) :
    ∃ own, t.Entered own (ctx.endImport e location (o, firsts (completed loads)) t).2 ∧
      ctx.ImportTold e loads (remarks.map JournalEntry.remark ++ own)
        (ctx.endImport e location (o, firsts (completed loads)) t).1 := by
  cases o with
  | ok n =>
    have hnamed := hwhole.resolve_left nofun
    obtain ⟨own, v, hv, hown, htells⟩ := endImport_ok_tells e location (s := t)
      (fun hu => nomatch hr.symm.trans hu) n (firsts (completed loads))
    rw [hv]
    exact ⟨own, hown, htells.told hplace hnamed.named hnamed.failure_ok remarks⟩
  | error f =>
    cases hc : (LocationKind.of location).contains f with
    | false =>
      rw [endImport_escapes hc]
      have hremarks := List.append_nil (remarks.map JournalEntry.remark)
      refine ⟨[], .refl t, .raised hb (fun location' h => ?_) ?_ ?_⟩
      · cases hplace.symm.trans h
        exact hc
      · rw [hremarks]
        exact problemsIn_remarks _
      · rw [hremarks]
        exact eventsOf_remarks _
    | true =>
      -- An import does not report that the depth has run out.
      have hnamed := hwhole.resolve_left fun h => by
        cases h
        cases hk : LocationKind.of location <;> rw [hk] at hc <;> cases hc
      obtain ⟨own, v, hv, hown, htells⟩ := endImport_error_tells (e := e) (s := t) hr hc
        (firsts (completed loads))
      rw [hv]
      exact ⟨own, hown, htells.told hplace hnamed.named hnamed.failure_error remarks⟩

end Context

namespace Loader

variable {l : Loader}

theorem importElement_told (hr : l.reporter = .collecting) (depth : Nat) (r : Resource)
    (e : Element) (s : Session) :
    ∃ loads u own, (l.importer depth).Loads s loads u ∧
      u.Entered own ((l.context (l.importer depth) r).importElement e s).2 ∧
      (l.context (l.importer depth) r).ImportTold e loads own
        ((l.context (l.importer depth) r).importElement e s).1 := by
  have hreporter : (l.context (l.importer depth) r).reporter = .collecting := hr
  rcases (l.context (l.importer depth) r).importElement_cases e s with
    ⟨hb, hblank⟩ | ⟨hb, ⟨err, hplace, hthrow⟩ | ⟨location, o, loaded, t, hplace, hload, hend⟩⟩
  · obtain ⟨own, hown, htold⟩ := Context.blank_told hreporter hb s
    rw [hblank]
    exact ⟨[], s, own, .none s, hown, htold⟩
  · rw [hthrow]
    refine ⟨[], s, [], .none s, .refl s, .raised hb (fun location h => ?_) rfl rfl⟩
    cases hplace.symm.trans h
  · obtain ⟨loads, u, remarks, hloads, hremarks, rfl, hwhole⟩ := loadNamed_loads hload
    obtain ⟨own, hown, htold⟩ := Context.endImport_told hreporter hb hplace hwhole remarks
    rw [hend]
    exact ⟨loads, u, _, hloads, hremarks.trans hown, htold⟩

/-- An import element makes loads and then tells of them. Its event lists what the loads completed,
in the order of first completion; a failure is its one problem, or else that nothing was found. -/
theorem import_told (hr : l.reporter = .collecting) (depth : Nat) (r : Resource) (e : Element)
    (s : Session) :
    ∃ loads u own, (l.importer depth).Loads s loads u ∧
      u.Entered own ((l.context (l.importer depth) r).importElement e s).2 ∧
      (problemsIn own).length ≤ 1 ∧
      (l.context (l.importer depth) r).ImportTold e loads own
        ((l.context (l.importer depth) r).importElement e s).1 := by
  obtain ⟨loads, u, own, hloads, hown, htold⟩ := importElement_told hr depth r e s
  exact ⟨loads, u, own, hloads, hown, htold.problem_le, htold⟩

end Loader

def patternLoader : Loader where
  workspace :=
    { tree :=
        ⟨[(["tmp", "vfs", "p1.xml"], Text.Utf8.encode
            "<beans><import resource=\"file:/tmp/vfs/q*.xml\"/></beans>")], []⟩
      current := ["tmp", "vfs"]
      packageRoot := ["tmp", "packages"]
      packages := [] }
  parse := Xml.parse
  environment := .ofProperties []
  reporter := .collecting
  listening := true
  documents := {}

def patternImport : Element := ⟨"import", none, [("resource", "file:/tmp/vfs/p*.xml")], [], some 1⟩

def patternRun : Except Failure Unit × Session :=
  let ctx := patternLoader.context (patternLoader.importer 2)
    (.ofFile patternLoader.workspace "a.xml")
  ctx.importElement patternImport {}

theorem patternRun_told :
    patternLoader.reporter = .collecting ∧
      (problemsIn patternRun.2.journal).map (·.1) = [.warning] ∧
      ∃ loads u, (patternLoader.importer 2).Loads {} loads u ∧
        firsts (completed loads) = [.ofFile patternLoader.workspace "p1.xml"] := by
  let listed : Event → Option (List Resource)
    | .imported _ resources _ => some resources
    | _ => none
  obtain ⟨hproblems, houtcome, hlisted⟩ :
      (problemsIn patternRun.2.journal).map (·.1) = [.warning] ∧ patternRun.1.toBool = true ∧
        (eventsOf patternRun.2.journal).getLast?.bind listed =
          some [.ofFile patternLoader.workspace "p1.xml"] := by
    decide +kernel
  obtain ⟨loads, u, own, hloads, hown, -, htold⟩ :=
    Loader.import_told (l := patternLoader) rfl 2 (.ofFile patternLoader.workspace "a.xml")
      patternImport {}
  refine ⟨rfl, hproblems, loads, u, hloads, ?_⟩
  change Context.ImportTold _ _ _ _ patternRun.1 at htold
  have hevents : eventsOf patternRun.2.journal = eventsOf u.journal ++ eventsOf own := by
    rw [← eventsOf_append, Session.journal, patternRun, hown, List.reverse_append,
      List.reverse_reverse]
    rfl
  generalize patternRun.1 = outcome at houtcome htold
  cases htold with
  | blank hb => exact absurd hb (by decide)
  | raised => cases houtcome
  | fired _ he _ hc =>
    rw [hevents, he, List.getLast?_append] at hlisted
    exact hc ▸ Option.some.inj hlisted

end BeanCatalog
