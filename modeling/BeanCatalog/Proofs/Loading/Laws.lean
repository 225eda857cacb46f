import BeanCatalog.Proofs.Loading.Relations
import BeanCatalog.Proofs.Reading.Problems

namespace BeanCatalog

abbrev SessionSpec := Session → Session → Prop

abbrev Keeps (R : SessionSpec) {α : Type} (act : StateM Session α) : Prop :=
  ∀ s : Session, R s (act s).2

structure Importer.Keeps (R : SessionSpec) (importer : Importer) : Prop where
  location (location : String) (loaded : List Resource) :
    BeanCatalog.Keeps R (importer.loadLocation location loaded)
  resource (r : Resource) : BeanCatalog.Keeps R (importer.loadResource r)

theorem Importer.Keeps.related {R : SessionSpec} {importer : Importer} (hi : importer.Keeps R) :
    Importer.Related (fun act _ => BeanCatalog.Keeps R act) (fun act _ => BeanCatalog.Keeps R act)
      importer importer :=
  ⟨hi.location, hi.resource⟩

structure Handler.Keeps (R : SessionSpec) (handler : Handler) : Prop where
  parse {importer : Importer} (hi : importer.Keeps R) (ctx : Context) (defaults : Defaults)
      (e : Element) :
    BeanCatalog.Keeps R (handler.parse ⟨ctx.via (some importer), defaults⟩ e)
  decorate {importer : Importer} (hi : importer.Keeps R) (ctx : Context) (defaults : Defaults)
      (e : Element) (holder : Holder) (name : Option String) :
    BeanCatalog.Keeps R (handler.decorate ⟨ctx.via (some importer), defaults⟩ e holder name)

structure SessionLaw (l : Loader) (R : SessionSpec) : Prop where
  refl (s : Session) : R s s
  trans {s t u : Session} : R s t → R t u → R s u
  names (s : Session) (names : List String) : R s { s with usedNames := names }
  silent (s : Session) {entry : JournalEntry} :
    entry.Silent → R s { s with entries := entry :: s.entries }
  problem (s : Session) (severity : Severity) (p : Problem) :
    R s { s with entries := .problem severity p :: s.entries }
  load (r : Resource) {act : Reading Nat} : Keeps R act → Keeps R (Reading.whileLoading r act)
  enroll (importer : Importer) (q : Resource) (e : Element) (enrolment : Enrolment) :
    Keeps R ((l.context importer q).enroll e enrolment)

namespace SessionLaw

variable {l : Loader} {R : SessionSpec} {α β : Type}

variable (hR : SessionLaw l R)
include hR

theorem bind {act : StateM Session α} {next : α → StateM Session β} (ha : Keeps R act)
    (hn : ∀ a, Keeps R (next a)) : Keeps R (act >>= next) := fun s =>
  hR.trans (ha s) (hn (act s).1 (act s).2)

theorem bindReading {act : Reading α} {next : α → Reading β} (ha : Keeps R act)
    (hn : ∀ a, Keeps R (next a)) : Keeps R (act >>= next : Reading β) := by
  change Keeps R (act.run >>= ExceptT.bindCont next)
  refine hR.bind ha fun o => ?_
  cases o with
  | error f => exact hR.refl
  | ok a => exact hn a

theorem bindLoad {act : StateM Session α} {next : α → Reading β} (ha : Keeps R act)
    (hn : ∀ a, Keeps R (next a)) : Keeps R (liftM act >>= next : Reading β) :=
  hR.bindReading ha hn

theorem take (reporter : Reporter) (severity : Severity) (p : Problem) :
    Keeps R (reporter.take severity p) := by
  refine hR.bindReading (fun s => hR.problem s severity p) fun _ => ?_
  have hremark : Keeps R (Reading.remark (.problem severity p.text)) := fun s =>
    hR.silent s (.remark _)
  cases reporter <;> cases severity <;> first | exact hremark | exact hR.refl

theorem steps (importer importer' : Importer) (q : Resource) :
    StepRelation (l.context importer q) (l.context importer' q) fun _ act _ => Keeps R act where
  alike := ⟨l.reporter, some importer', rfl⟩
  done _ := hR.refl
  bind ha hn := hR.bindReading ha hn
  session hn _ _ := hR.bindReading hR.refl hn
  names _ s := hR.names s _
  remark _ s := hR.silent s (.remark _)
  fresh ha s := hR.trans (hR.trans (hR.names s []) (ha _)) (hR.names _ s.usedNames)
  enter he s := hR.silent s he
  report _ _ _ _ := hR.take _ _ _
  enroll := hR.enroll importer q

theorem relation :
    LoadRelation l l (fun _ act _ => Keeps R act) fun act _ => Keeps R act where
  alike := ⟨l.reporter, rfl⟩
  steps := hR.steps
  fails _ := hR.refl
  loading r _ _ ha := hR.load r ha
  settled _ := hR.refl
  further loaded _ _ _ _ ha hn := by
    refine hR.bind ha fun outcome => ?_
    cases outcome with
    | error f => exact hR.refl
    | ok n => exact hn n
  concluded location _ _ ha := by
    refine hR.bind ha fun (outcome, loaded) => ?_
    cases outcome with
    | error f => exact hR.refl
    | ok count => exact fun s => hR.silent s (.remark _)
  imported importer importer' r e location _ _ ha := by
    refine hR.bindLoad ha fun outcome => ?_
    exact (hR.steps importer importer' r).endImport e location outcome fun _ _ => hR.refl
  before ha hrest := by
    refine hR.bindLoad ha fun (outcome, loaded) => ?_
    cases outcome with
    | error f => exact hR.refl
    | ok count => exact hrest

variable (hh : ∀ uri handler, l.documents.handlers.get? uri = some handler → handler.Keeps R)
include hh

theorem layeredBy :
    LayeredRelation l l (fun _ act _ => Keeps R act) (fun act _ => Keeps R act) fun act _ =>
      Keeps R act :=
  hR.relation.layeredBy fun {i _} hi r =>
    { parse := fun h => (hh _ _ h).parse ⟨hi.location, hi.resource⟩ (l.context i r)
      decorate := fun h => (hh _ _ h).decorate ⟨hi.location, hi.resource⟩ (l.context i r) }

theorem importer (depth : Nat) : (l.importer depth).Keeps R :=
  have hi := (hR.layeredBy hh).importer depth
  ⟨hi.location, hi.resource⟩

theorem registerDocument (depth : Nat) (root : Element) (r : Resource) :
    Keeps R (l.registerDocument (l.importer depth) root r) :=
  (hR.layeredBy hh).registerDocument ((hR.layeredBy hh).importer depth) root r

end SessionLaw

end BeanCatalog
