import BeanCatalog.Proofs.Loading.Chain
import BeanCatalog.Proofs.Registry.Growth
import BeanCatalog.Xml.Document

namespace BeanCatalog

def Session.Registers (s t : Session) : Prop :=
  ∃ uses, t.registry = s.registry.performAll uses

def Enrolment.use : Enrolment → RegistryUse Definition
  | .naming name alt => .call (.addAlias name alt)
  | .bean holder => .holder holder.name holder.definition holder.aliases

theorem Enrolment.perform_use (r : Registry Definition) (enrolment : Enrolment) :
    r.perform enrolment.use = r.afterCalls enrolment.calls := by
  cases enrolment <;> rfl

namespace Session.Registers

variable {s t u : Session}

theorem of_same (h : t.registry = s.registry) : s.Registers t := ⟨[], h⟩

theorem trans (hst : s.Registers t) (htu : t.Registers u) : s.Registers u := by
  obtain ⟨first, hfirst⟩ := hst
  obtain ⟨rest, hrest⟩ := htu
  refine ⟨first ++ rest, ?_⟩
  rw [hrest, hfirst, Registry.performAll, Registry.performAll, Registry.performAll,
    List.foldl_append]

theorem enroll (ctx : Context) (e : Element) (enrolment : Enrolment) (s : Session) :
    s.Registers (ctx.enroll e enrolment s).2 := by
  refine ⟨[enrolment.use], ?_⟩
  change _ = s.registry.perform enrolment.use
  rw [Enrolment.perform_use]
  cases hc : (s.registry.calls (fun _ _ => false) enrolment.calls).refusal with
  | none => rw [Context.enroll_accepted _ _ hc]
  | some refusal =>
    obtain ⟨remarks, ht⟩ := ctx.enroll_refused e hc
    rw [ht]

theorem grows (h : s.Registers t) : ∃ added, s.registry.Grows added t.registry := by
  obtain ⟨uses, huses⟩ := h
  rw [huses]
  exact s.registry.performAll_grows uses

theorem gains (h : s.Registers t) {n : Nat} (hn : t.registry.size = s.registry.size + n) :
    s.registry.Gains n t.registry := by
  obtain ⟨added, hadded⟩ := h.grows
  have hlength : added.length = n := Nat.add_left_cancel (hadded.gains.size.symm.trans hn)
  exact hlength ▸ hadded.gains

end Session.Registers

namespace Loader

variable {l : Loader} {importer : Importer} {r : Resource} {s t : Session} {n : Nat}

theorem registers_law (l : Loader) : SessionLaw l Session.Registers where
  refl _ := .of_same rfl
  trans := .trans
  names _ _ := .of_same rfl
  silent _ _ _ := .of_same rfl
  problem _ _ _ := .of_same rfl
  load _ _ ha s := ha (s.beginning _)
  enroll importer q := Session.Registers.enroll (l.context importer q)

theorem registerDocument_count {root : Element}
    (h : l.registerDocument importer root r s = (.ok n, t)) :
    n = t.registry.size - s.registry.size := by
  unfold registerDocument at h
  have hget : (get : Reading Session) s = (.ok s, s) := rfl
  rw [Reading.bind_ok _ hget] at h
  rcases hread : l.documents.read (l.context importer r) root s with ⟨f | u, v⟩
  · rw [Reading.bind_error _ hread] at h
    cases h
  · rw [Reading.bind_ok _ hread] at h
    cases h
    rfl

section

variable (hh : ∀ uri handler, l.documents.handlers.get? uri = some handler →
  handler.Keeps Session.Registers) (hi : importer.Keeps Session.Registers)
include hh hi

theorem registerDocument_size {root : Element}
    (h : l.registerDocument importer root r s = (.ok n, t)) :
    t.registry.size = s.registry.size + n := by
  have hregisters : s.Registers (l.registerDocument importer root r s).2 :=
    ((registers_law l).layeredBy hh).registerDocument hi.related root r s
  rw [h] at hregisters
  obtain ⟨added, hadded⟩ := hregisters.grows
  have hsize : t.registry.size = s.registry.size + added.length := hadded.gains.size
  have hcount := registerDocument_count h
  omega

theorem readResource_size (h : l.readResource importer r s = (.ok n, t)) :
    t.registry.size = s.registry.size + n := by
  unfold readResource at h
  cases hread : r.read l.workspace with
  | error f =>
    rw [hread] at h
    cases h
  | ok bytes =>
    rw [hread] at h
    cases hparse : l.parse bytes with
    | error line =>
      simp only [hparse] at h
      cases h
    | ok root =>
      simp only [hparse] at h
      exact registerDocument_size hh hi h

theorem loadResource_size (h : l.loadResource importer r s = (.ok n, t)) :
    t.registry.size = s.registry.size + n := by
  rw [loadResource_apply] at h
  split at h
  · cases h
  split at h
  · cases h
  · cases h
  · let s' : Session := { s with entries := .remark (.loading r.description) :: s.entries }
    rcases hread : l.readResource importer r (s'.beginning r) with ⟨o, u⟩
    rw [whileLoading_apply hread] at h
    cases h
    have hsize := readResource_size hh hi hread
    exact hsize

theorem loadAll_size {count : Nat} {loaded loaded' rs : List Resource}
    (h : l.loadAll importer count loaded rs s = ((.ok n, loaded'), t)) :
    t.registry.size + count = s.registry.size + n := by
  induction rs generalizing count loaded s with
  | nil =>
    cases h
    rfl
  | cons r rs ih =>
    change loadThen (l.loadResource importer r) loaded _ s = _ at h
    rcases hr : l.loadResource importer r s with ⟨f | m, u⟩
    · rw [loadThen_error hr] at h
      cases h
    · rw [loadThen_ok hr] at h
      have hrest := ih h
      have hfirst := loadResource_size hh hi hr
      omega

theorem loadLocation_size {location : String} {loaded loaded' : List Resource}
    (h : l.loadLocation importer location loaded s = ((.ok n, loaded'), t)) :
    t.registry.size = s.registry.size + n := by
  unfold loadLocation at h
  cases hrs : Location.resources l.workspace location with
  | error f =>
    rw [hrs] at h
    cases h
  | ok rs =>
    rw [hrs] at h
    change concludeLoads location (l.loadAll importer 0 loaded rs) s = _ at h
    rcases ha : l.loadAll importer 0 loaded rs s with ⟨⟨f | m, reached⟩, u⟩
    · rw [concludeLoads_error ha] at h
      cases h
    · rw [concludeLoads_ok ha] at h
      cases h
      exact loadAll_size hh hi ha

end

/-- What a load or the reading of a document returns is the number of names that have a definition now
and had none. No name has lost its definition, whatever was imported or overridden. -/
theorem count_is_growth
    (hh : ∀ uri handler, l.documents.handlers.get? uri = some handler →
      handler.Keeps Session.Registers) (depth : Nat) :
    (∀ location loaded loaded',
        (l.importer depth).loadLocation location loaded s = ((.ok n, loaded'), t) →
          s.registry.Gains n t.registry) ∧
      (∀ r, (l.importer depth).loadResource r s = (.ok n, t) → s.registry.Gains n t.registry) ∧
      ∀ root r, l.registerDocument (l.importer depth) root r s = (.ok n, t) →
        s.registry.Gains n t.registry := by
  have hlaw := registers_law l
  have hi := hlaw.importer hh depth
  refine ⟨fun location loaded loaded' h => ?_, fun r h => ?_, fun root r h => ?_⟩
  · have hregisters := hi.location location loaded s
    rw [h] at hregisters
    cases depth with
    | zero => cases h
    | succ depth => exact hregisters.gains (loadLocation_size hh (hlaw.importer hh depth) h)
  · have hregisters := hi.resource r s
    rw [h] at hregisters
    cases depth with
    | zero => cases h
    | succ depth => exact hregisters.gains (loadResource_size hh (hlaw.importer hh depth) h)
  · have hregisters := hlaw.registerDocument hh depth root r s
    rw [h] at hregisters
    exact hregisters.gains (registerDocument_size hh hi h)

end Loader

theorem Handler.including_registers : Handler.including.Keeps Session.Registers where
  parse {importer} hi ctx defaults e := by
    let l : Loader := ⟨ctx.workspace, Xml.parse, ctx.environment, ctx.reporter, ctx.listening, {}⟩
    have hlaw := Loader.registers_law l
    have himport : BeanCatalog.Keeps Session.Registers ((l.context importer ctx.resource).importElement e) :=
      (hlaw.layeredBy nofun).reads.importElement hi.related ctx.resource e
    exact hlaw.bindReading himport fun _ => hlaw.refl
  decorate _ _ _ _ _ _ _ := .of_same rfl

def countLoader : Loader where
  workspace :=
    { tree :=
        ⟨[(["tmp", "vfs", "a1.xml"], Text.Utf8.encode
            ("<beans xmlns:x=\"urn:x\"><bean id=\"a\" class=\"A\"/><import resource=\"b.xml\"/>" ++
              "<x:a resource=\"b.xml\"/><bean id=\"b\" class=\"C\"/>" ++
              "<bean id=\"c\" class=\"C\"/></beans>")),
          (["tmp", "vfs", "b.xml"], Text.Utf8.encode "<beans><bean id=\"b\" class=\"B\"/></beans>")],
          []⟩
      current := ["tmp", "vfs"]
      packageRoot := ["tmp", "packages"]
      packages := [] }
  parse := Xml.parse
  environment := .ofProperties []
  reporter := .collecting
  listening := true
  documents := { handlers := [("urn:x", .including)] }

def countStart : Session :=
  { registry := ({} : Registry Definition).performAll [.call (.define "a" {})] }

def countRun : LoadOutcome × Session :=
  (countLoader.importer 2).loadLocation "file:/tmp/vfs/a*.xml" [] countStart

theorem countRun_gains :
    (∀ uri handler, countLoader.documents.handlers.get? uri = some handler →
        handler.Keeps Session.Registers) ∧
      countRun.1.1.toOption = some 2 ∧ countRun.2.registry.names = ["a", "b", "c"] ∧
      countStart.registry.Gains 2 countRun.2.registry := by
  have hregisters : ∀ uri handler, countLoader.documents.handlers.get? uri = some handler →
      handler.Keeps Session.Registers := by
    intro uri handler h
    rw [show countLoader.documents.handlers = [("urn:x", .including)] from rfl, Table.get?_cons] at h
    split at h
    · exact Option.some.inj h ▸ Handler.including_registers
    · cases h
  obtain ⟨hcount, hnames⟩ :
      countRun.1.1.toOption = some 2 ∧ countRun.2.registry.names = ["a", "b", "c"] := by
    decide +kernel
  refine ⟨hregisters, hcount, hnames, ?_⟩
  rcases hrun : countRun with ⟨⟨f | n, loaded⟩, t⟩
  · rw [hrun] at hcount
    cases hcount
  · rw [hrun] at hcount
    cases hcount
    exact (Loader.count_is_growth hregisters 2).1 _ _ loaded hrun

end BeanCatalog
