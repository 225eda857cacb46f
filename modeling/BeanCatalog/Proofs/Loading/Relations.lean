import BeanCatalog.Proofs.Loading.Import
import BeanCatalog.Proofs.Reading.Steps

namespace BeanCatalog

def loadThen (act : Reading Nat) (loaded : List Resource) (next : Nat → StateM Session LoadOutcome) :
    StateM Session LoadOutcome := do
  match ← act.run with
  | .error f => pure (.error f, loaded)
  | .ok n => next n

def concludeLoads (location : String) (act : StateM Session LoadOutcome) :
    StateM Session LoadOutcome := do
  let (outcome, loaded) ← act
  match outcome with
  | .error f => pure (.error f, loaded)
  | .ok count => do
    let _ ← (Reading.remark (.loaded count location)).run
    pure (.ok count, loaded)

def loadBefore (act : StateM Session LoadOutcome) (rest : Reading Unit) : Reading Unit := do
  let (outcome, _) ← liftM act
  match outcome with
  | .error f => throw f
  | .ok _ => rest

structure Importer.Related (T : Reading Nat → Reading Nat → Prop)
    (U : StateM Session LoadOutcome → StateM Session LoadOutcome → Prop)
    (importer importer' : Importer) : Prop where
  location (location : String) (loaded : List Resource) :
    U (importer.loadLocation location loaded) (importer'.loadLocation location loaded)
  resource (r : Resource) : T (importer.loadResource r) (importer'.loadResource r)

structure ReadRelation (l l' : Loader) (T : ∀ ⦃α : Type⦄, Reading α → Reading α → Prop)
    (V : Reading Nat → Reading Nat → Prop)
    (U : StateM Session LoadOutcome → StateM Session LoadOutcome → Prop) : Prop where
  alike : ∃ reporter, l' = { l with reporter := reporter }
  steps (importer importer' : Importer) (r : Resource) :
    StepRelation (l.context importer r) (l'.context importer' r) T
  handlers {importer importer' : Importer} (hi : Importer.Related V U importer importer')
      (r : Resource) :
    HandlersRelated (l.context importer r) (l'.context importer' r) T l.documents.handlers
  fails {α : Type} (f : Failure) (hf : f.kind ≠ .reported) (hc : ∀ d, f ≠ .cyclic d) :
    T (throw f : Reading α) (throw f)
  settled (outcome : LoadOutcome) (ho : ∀ f, outcome.1 = .error f → f.kind ≠ .reported) :
    U (pure outcome) (pure outcome)
  further (loaded : List Resource) {act act' : Reading Nat}
      {next next' : Nat → StateM Session LoadOutcome} :
    V act act' → (∀ n, U (next n) (next' n)) → U (loadThen act loaded next) (loadThen act' loaded next')
  imported (importer importer' : Importer) (r : Resource) (e : Element) (location : String)
      {act act' : StateM Session LoadOutcome} :
    U act act' → T (liftM act >>= (l.context importer r).endImport e location)
      (liftM act' >>= (l'.context importer' r).endImport e location)

/-- Relations in three layers: `T` between the steps of a document, `V` between the loads of a
resource, and `U` between the loads of a location. -/
structure LayeredRelation (l l' : Loader) (T : ∀ ⦃α : Type⦄, Reading α → Reading α → Prop)
    (V : Reading Nat → Reading Nat → Prop)
    (U : StateM Session LoadOutcome → StateM Session LoadOutcome → Prop) : Prop where
  alike : ∃ reporter, l' = { l with reporter := reporter }
  steps (importer importer' : Importer) (r : Resource) :
    StepRelation (l.context importer r) (l'.context importer' r) T
  handlers {importer importer' : Importer} (hi : Importer.Related V U importer importer')
      (r : Resource) :
    HandlersRelated (l.context importer r) (l'.context importer' r) T l.documents.handlers
  fails {α : Type} (f : Failure) (hf : f.kind ≠ .reported) : T (throw f : Reading α) (throw f)
  exhausted : V (throw .exhausted) (throw .exhausted)
  resource (importer importer' : Importer) (r : Resource) :
    T (l.readResource importer r) (l'.readResource importer' r) →
      V (l.loadResource importer r) (l'.loadResource importer' r)
  settled (outcome : LoadOutcome) (ho : ∀ f, outcome.1 = .error f → f.kind ≠ .reported) :
    U (pure outcome) (pure outcome)
  further (loaded : List Resource) {act act' : Reading Nat}
      {next next' : Nat → StateM Session LoadOutcome} :
    V act act' → (∀ n, U (next n) (next' n)) → U (loadThen act loaded next) (loadThen act' loaded next')
  concluded (location : String) {act act' : StateM Session LoadOutcome} :
    U act act' → U (concludeLoads location act) (concludeLoads location act')
  imported (importer importer' : Importer) (r : Resource) (e : Element) (location : String)
      {act act' : StateM Session LoadOutcome} :
    U act act' → T (liftM act >>= (l.context importer r).endImport e location)
      (liftM act' >>= (l'.context importer' r).endImport e location)

structure LoadRelation (l l' : Loader) (T : ∀ ⦃α : Type⦄, Reading α → Reading α → Prop)
    (U : StateM Session LoadOutcome → StateM Session LoadOutcome → Prop) : Prop where
  alike : ∃ reporter, l' = { l with reporter := reporter }
  steps (importer importer' : Importer) (r : Resource) :
    StepRelation (l.context importer r) (l'.context importer' r) T
  fails {α : Type} (f : Failure) : T (throw f : Reading α) (throw f)
  loading (r : Resource) {act act' : Reading Nat} :
    T act act' → T (Reading.whileLoading r act) (Reading.whileLoading r act')
  settled (outcome : LoadOutcome) : U (pure outcome) (pure outcome)
  further (loaded : List Resource) {act act' : Reading Nat}
      {next next' : Nat → StateM Session LoadOutcome} :
    T act act' → (∀ n, U (next n) (next' n)) → U (loadThen act loaded next) (loadThen act' loaded next')
  concluded (location : String) {act act' : StateM Session LoadOutcome} :
    U act act' → U (concludeLoads location act) (concludeLoads location act')
  imported (importer importer' : Importer) (r : Resource) (e : Element) (location : String)
      {act act' : StateM Session LoadOutcome} :
    U act act' → T (liftM act >>= (l.context importer r).endImport e location)
      (liftM act' >>= (l'.context importer' r).endImport e location)
  before {act act' : StateM Session LoadOutcome} {rest rest' : Reading Unit} :
    U act act' → T rest rest' → T (loadBefore act rest) (loadBefore act' rest')

theorem StepRelation.endImport {ctx ctx' : Context}
    {T : ∀ ⦃α : Type⦄, Reading α → Reading α → Prop} (hT : StepRelation ctx ctx' T)
    (e : Element) (location : String) (outcome : LoadOutcome)
    (hf : ∀ f, (LocationKind.of location).contains f = false →
      T (throw f : Reading Unit) (throw f)) :
    T (ctx.endImport e location outcome) (ctx'.endImport e location outcome) := by
  obtain ⟨o, loaded⟩ := outcome
  have hsource : ctx'.source e = ctx.source e := by
    obtain ⟨reporter, importer, rfl⟩ := hT.alike
    rfl
  have hfire : T (ctx.fire (.imported location loaded (ctx.source e)))
      (ctx'.fire (.imported location loaded (ctx'.source e))) := by
    rw [hsource]
    exact hT.fire (.imported _ _ _)
  cases o with
  | ok count =>
    refine hT.bind (hT.bind (hT.remark _) fun _ => ?_) fun _ => hfire
    exact ParseRelation.ite loaded.isEmpty (hT.report _ _ _ _) (hT.done ())
  | error f =>
    by_cases hc : (LocationKind.of location).contains f = true
    · rw [Context.endImport_contained hc, Context.endImport_contained hc]
      exact hT.bind (hT.error _ _ _) fun _ => hfire
    · rw [Bool.not_eq_true] at hc
      rw [Context.endImport_escapes hc, Context.endImport_escapes hc]
      exact hf f hc

theorem FailureKind.ne_reported_of_system {k : FailureKind} (h : k.isSystem = true) :
    k ≠ .reported := by
  rintro rfl
  cases h

theorem resources_ne_reported {w : Workspace} {location : String} {f : Failure}
    (h : Location.resources w location = .error f) : f.kind ≠ .reported := by
  rcases Location.resources_error h with rfl | ⟨err, -, rfl⟩ | rfl <;> exact nofun

theorem read_fails {w : Workspace} {r : Resource} {f : Failure} (h : r.read w = .error f) :
    f.kind ≠ .reported ∧ ∀ d, f ≠ .cyclic d := by
  have hfile (err : FileError) :
      (Failure.file err).kind ≠ .reported ∧ ∀ d, Failure.file err ≠ .cyclic d := by
    cases err <;> exact ⟨by rintro ⟨⟩, by rintro d ⟨⟩⟩
  cases r with
  | file path =>
    obtain ⟨err, -, rfl⟩ := mapError_eq_error h
    exact hfile err
  | bytes data label => cases h
  | package name path =>
    simp only [Resource.read] at h
    split at h
    · cases h
      exact ⟨by rintro ⟨⟩, by rintro d ⟨⟩⟩
    · split at h
      · cases h
        exact ⟨by rintro ⟨⟩, by rintro d ⟨⟩⟩
      · obtain ⟨err, -, rfl⟩ := mapError_eq_error h
        exact hfile err
  | stub stub =>
    cases h
    exact ⟨by rintro ⟨⟩, by rintro d ⟨⟩⟩
  | unknown =>
    cases h
    exact ⟨by rintro ⟨⟩, by rintro d ⟨⟩⟩

theorem beside_error (ctx : Context) {location : String} {f : Failure}
    (h : (do
      let r ← ctx.resource.sibling location
      if ← r.present ctx.workspace then pure (.inl r)
      else pure (.inr (applyRelativePath (← ctx.resource.url) location)) :
        Except Failure (Resource ⊕ String)) = .error f) : f.kind.isSystem = true := by
  rcases bind_eq_error h with h | ⟨q, hq, h⟩
  · rw [sibling_error h]
    rfl
  rcases bind_eq_error h with h | ⟨there, -, h⟩
  · rcases present_error h with rfl | ⟨-, hu⟩
    · rfl
    · exact absurd hu (sibling_ne_unknown hq)
  cases there with
  | true => cases h
  | false =>
    rcases bind_eq_error h with h | ⟨url, -, h⟩
    · rw [url_error h]
      rfl
    · cases h

namespace ReadRelation

variable {l l' : Loader} {T : ∀ ⦃α : Type⦄, Reading α → Reading α → Prop}
  {V : Reading Nat → Reading Nat → Prop}
  {U : StateM Session LoadOutcome → StateM Session LoadOutcome → Prop} {i i' : Importer}

variable (hL : ReadRelation l l' T V U)
include hL

theorem loadNamed (hi : Importer.Related V U i i') (r : Resource) (location : String)
    (kind : LocationKind) :
    U ((l.context i r).loadNamed location kind) ((l'.context i' r).loadNamed location kind) := by
  obtain ⟨reporter, rfl⟩ := hL.alike
  cases kind with
  | absolute => exact hi.location location []
  | relative =>
    unfold Context.loadNamed Context.loadBeside
    dsimp only [Loader.context]
    split
    · next f hf =>
      refine hL.settled _ fun g hg => ?_
      cases hg
      exact FailureKind.ne_reported_of_system (beside_error (l.context i r) hf)
    · exact hL.further [] (hi.resource _) fun count => hL.settled _ nofun
    · exact hi.location _ []

theorem importElement (hi : Importer.Related V U i i') (r : Resource) (e : Element) :
    T ((l.context i r).importElement e) ((l'.context i' r).importElement e) := by
  have hT := hL.steps i i' r
  by_cases hb : Text.allBlank (e.attr "resource") = true
  · rw [Context.importElement_blank _ hb, Context.importElement_blank _ hb]
    exact hT.error _ _ _
  rw [Bool.not_eq_true] at hb
  have henv : (l'.context i' r).environment = (l.context i r).environment := by
    obtain ⟨reporter, rfl⟩ := hL.alike
    rfl
  cases hl : (l.context i r).environment.resolveRequired (e.attr "resource") with
  | error err =>
    rw [Context.importElement_placeholder _ hb hl,
      Context.importElement_placeholder _ hb (henv ▸ hl)]
    exact hL.fails _ (by cases err <;> exact nofun) nofun
  | ok location =>
    rw [Context.importElement_load _ hb hl, Context.importElement_load _ hb (henv ▸ hl)]
    exact hL.imported i i' r e location (hL.loadNamed hi r location _)

theorem readScope (hi : Importer.Related V U i i') (outer : Defaults) (root : Element)
    (r : Resource) :
    T (l.documents.readScope (l.context i r) outer root)
      (l'.documents.readScope (l'.context i' r) outer root) := by
  have hdocuments : l'.documents = l.documents := by
    obtain ⟨reporter, rfl⟩ := hL.alike
    rfl
  rw [hdocuments]
  exact (hL.steps i i' r).readScope (hL.handlers hi r) outer root fun e _ =>
    hL.importElement hi r e

theorem readElement (hi : Importer.Related V U i i') (defaults : Defaults) (e : Element)
    (r : Resource) :
    T (l.documents.readElement ⟨l.context i r, defaults⟩ e)
      (l.documents.readElement ⟨l'.context i' r, defaults⟩ e) := by
  have hT := hL.steps i i' r
  have hh := hL.handlers hi r
  exact hT.readElement hh defaults e (fun _ _ => hL.importElement hi r e) fun _ _ =>
    hT.readScope hh defaults e fun e _ => hL.importElement hi r e

theorem registerDocument (hi : Importer.Related V U i i') (root : Element) (r : Resource) :
    T (l.registerDocument i root r) (l'.registerDocument i' root r) := by
  have hT := hL.steps i i' r
  refine hT.session (fun before => ?_) (fun s entries => rfl) fun s entries => rfl
  refine hT.bind (hL.readScope hi [] root r) fun _ => ?_
  exact hT.session (fun after => hT.done _) (fun s entries => rfl) fun s entries => rfl

theorem readResource (hi : Importer.Related V U i i') (r : Resource) :
    T (l.readResource i r) (l'.readResource i' r) := by
  have hworkspace : l'.workspace = l.workspace := by
    obtain ⟨reporter, rfl⟩ := hL.alike
    rfl
  have hparse : l'.parse = l.parse := by
    obtain ⟨reporter, rfl⟩ := hL.alike
    rfl
  unfold Loader.readResource
  rw [hworkspace, hparse]
  split
  · next f hf =>
    split
    · exact hL.fails _ nofun nofun
    · exact hL.fails _ (read_fails hf).1 (read_fails hf).2
  · split
    · exact hL.fails _ nofun nofun
    · exact hL.registerDocument hi _ _

end ReadRelation

namespace LayeredRelation

variable {l l' : Loader} {T : ∀ ⦃α : Type⦄, Reading α → Reading α → Prop}
  {V : Reading Nat → Reading Nat → Prop}
  {U : StateM Session LoadOutcome → StateM Session LoadOutcome → Prop} {i i' : Importer}

variable (hL : LayeredRelation l l' T V U)
include hL

theorem reads : ReadRelation l l' T V U where
  alike := hL.alike
  steps := hL.steps
  handlers := hL.handlers
  fails f hf _ := hL.fails f hf
  settled := hL.settled
  further := hL.further
  imported := hL.imported

theorem readScope (hi : Importer.Related V U i i') (outer : Defaults) (root : Element)
    (r : Resource) :
    T (l.documents.readScope (l.context i r) outer root)
      (l'.documents.readScope (l'.context i' r) outer root) :=
  hL.reads.readScope hi outer root r

theorem readElement (hi : Importer.Related V U i i') (defaults : Defaults) (e : Element)
    (r : Resource) :
    T (l.documents.readElement ⟨l.context i r, defaults⟩ e)
      (l.documents.readElement ⟨l'.context i' r, defaults⟩ e) :=
  hL.reads.readElement hi defaults e r

theorem registerDocument (hi : Importer.Related V U i i') (root : Element) (r : Resource) :
    T (l.registerDocument i root r) (l'.registerDocument i' root r) :=
  hL.reads.registerDocument hi root r

theorem readResource (hi : Importer.Related V U i i') (r : Resource) :
    T (l.readResource i r) (l'.readResource i' r) :=
  hL.reads.readResource hi r

theorem loadResource (hi : Importer.Related V U i i') (r : Resource) :
    V (l.loadResource i r) (l'.loadResource i' r) :=
  hL.resource i i' r (hL.readResource hi r)

theorem loadAll (hi : Importer.Related V U i i') (rs : List Resource) (count : Nat)
    (loaded : List Resource) :
    U (l.loadAll i count loaded rs) (l'.loadAll i' count loaded rs) := by
  induction rs generalizing count loaded with
  | nil => exact hL.settled _ nofun
  | cons r rs ih => exact hL.further loaded (hL.loadResource hi r) fun n => ih _ _

theorem loadLocation (hi : Importer.Related V U i i') (location : String)
    (loaded : List Resource) :
    U (l.loadLocation i location loaded) (l'.loadLocation i' location loaded) := by
  have hworkspace : l'.workspace = l.workspace := by
    obtain ⟨reporter, rfl⟩ := hL.alike
    rfl
  unfold Loader.loadLocation
  rw [hworkspace]
  split
  · next f hf =>
    refine hL.settled _ fun g hg => ?_
    cases hg
    exact resources_ne_reported hf
  · exact hL.concluded location (hL.loadAll hi _ 0 loaded)

theorem importer (depth : Nat) : Importer.Related V U (l.importer depth) (l'.importer depth) := by
  induction depth with
  | zero =>
    refine ⟨fun location loaded => hL.settled _ fun f hf => ?_, fun r => hL.exhausted⟩
    cases hf
    exact nofun
  | succ depth ih => exact ⟨hL.loadLocation ih, hL.loadResource ih⟩

end LayeredRelation

namespace LoadRelation

variable {l l' : Loader} {T : ∀ ⦃α : Type⦄, Reading α → Reading α → Prop}
  {U : StateM Session LoadOutcome → StateM Session LoadOutcome → Prop}

variable (hL : LoadRelation l l' T U)
include hL

theorem loadResource {i i' : Importer} {r : Resource}
    (h : T (l.readResource i r) (l'.readResource i' r)) :
    T (l.loadResource i r) (l'.loadResource i' r) := by
  have hT := hL.steps i i' r
  have hworkspace : l'.workspace = l.workspace := by
    obtain ⟨reporter, rfl⟩ := hL.alike
    rfl
  refine hT.session (fun s => ?_) (fun s entries => rfl) fun s entries => rfl
  dsimp only
  rw [hworkspace]
  cases r.present l.workspace with
  | error f => exact ParseRelation.ite _ (hT.bind (hL.fails _) fun _ => hL.fails f) (hL.fails f)
  | ok there =>
    cases there with
    | false => exact ParseRelation.ite _ (hT.bind (hL.fails _) fun _ => hL.fails _) (hL.fails _)
    | true =>
      have hload := hT.bind (hT.remark (.loading r.description)) fun _ => hL.loading r h
      exact ParseRelation.ite _ (hT.bind (hL.fails _) fun _ => hload) hload

theorem layeredBy
    (hh : ∀ {i i' : Importer}, Importer.Related (@T Nat) U i i' → ∀ r : Resource,
      HandlersRelated (l.context i r) (l'.context i' r) T l.documents.handlers) :
    LayeredRelation l l' T (@T Nat) U where
  alike := hL.alike
  steps := hL.steps
  handlers := hh
  fails f _ := hL.fails f
  exhausted := hL.fails _
  resource _ _ _ := hL.loadResource
  settled outcome _ := hL.settled outcome
  further := hL.further
  concluded := hL.concluded
  imported := hL.imported

theorem layered (hh : l.documents.handlers = []) : LayeredRelation l l' T (@T Nat) U :=
  hL.layeredBy fun _ _ => .of_nil hh

theorem loadEach (hh : l.documents.handlers = []) (depth : Nat) (locations : List String) :
    T (l.loadEach depth locations) (l'.loadEach depth locations) := by
  induction locations with
  | nil => exact (hL.steps .exhausted .exhausted .unknown).done ()
  | cons location rest ih =>
    exact hL.before (((hL.layered hh).importer depth).location location []) ih

end LoadRelation

end BeanCatalog
