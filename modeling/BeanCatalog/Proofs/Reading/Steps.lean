import BeanCatalog.Proofs.Reading.Parts

/-!
Relations between the readings of a document in two contexts. A relation that holds of the single
steps and goes along their composition holds of whole documents.
-/

namespace BeanCatalog

inductive Enrolment where
  | naming (name alt : String)
  | bean (holder : Holder)

namespace Enrolment

def calls : Enrolment → List (RegistryCall Definition)
  | .naming name alt => [.addAlias name alt]
  | .bean holder => holder.calls

def fault : Enrolment → Fault
  | .naming name alt => .aliasRefused name alt
  | .bean holder => .definitionRefused holder.name

def event (source : SourceLocation) : Enrolment → Event
  | .naming name alt => .aliased name alt source
  | .bean holder => .component holder source

end Enrolment

def Context.enroll (ctx : Context) (e : Element) (enrolment : Enrolment) : Reading Unit := do
  match ← Reading.register enrolment.calls with
  | some refusal => ctx.error enrolment.fault e (some (.refused refusal))
  | none => ctx.fire (enrolment.event (ctx.source e))

theorem DocumentReader.keepBean_some (reader : DocumentReader) (scope : Scope) (e : Element)
    (holder : Holder) :
    reader.keepBean scope e (some holder) =
      scope.decorate reader.handlers e holder >>= fun holder =>
        scope.context.enroll e (.bean holder) := rfl

inductive JournalEntry.Silent : JournalEntry → Prop
  | remark (r : Remark) : Silent (.remark r)
  | opened (e : Element) : Silent (.opened e)
  | closed (e : Element) : Silent (.closed e)
  | defaults (values : ScopeDefaults) (source : SourceLocation) :
      Silent (.event (.defaults values source))
  | imported (location : String) (resources : List Resource) (source : SourceLocation) :
      Silent (.event (.imported location resources source))

/-- A relation between the steps that parse an element, in two contexts which differ in their
reporters and in how they load imports. -/
structure ParseRelation (ctx ctx' : Context) (T : ∀ ⦃α : Type⦄, Reading α → Reading α → Prop) :
    Prop where
  alike : ∃ reporter importer, ctx' = { ctx with reporter := reporter, importer := importer }
  done {α : Type} (a : α) : T (pure a) (pure a)
  bind {α β : Type} {act act' : Reading α} {next next' : α → Reading β} :
    T act act' → (∀ a, T (next a) (next' a)) → T (act >>= next) (act' >>= next')
  session {α : Type} {next next' : Session → Reading α} (hn : ∀ s, T (next s) (next' s))
      (hnext : ∀ s entries, next { s with entries := entries } = next s)
      (hnext' : ∀ s entries, next' { s with entries := entries } = next' s) :
    T ((get : Reading Session) >>= next) ((get : Reading Session) >>= next')
  names (names : List String) :
    T (modify fun s => { s with usedNames := names ++ s.usedNames } : Reading Unit)
      (modify fun s => { s with usedNames := names ++ s.usedNames })
  remark (r : Remark) : T (Reading.remark r) (Reading.remark r)
  report (severity : Severity) (fault : Fault) (e : Option Element) (cause : Option Failure) :
    T (ctx.report severity fault e cause) (ctx'.report severity fault e cause)

structure StepRelation (ctx ctx' : Context) (T : ∀ ⦃α : Type⦄, Reading α → Reading α → Prop) :
    Prop extends ParseRelation ctx ctx' T where
  fresh {act act' : Reading Unit} :
    T act act' → T (Reading.withFreshNames act) (Reading.withFreshNames act')
  enter {entry : JournalEntry} : entry.Silent → T (Reading.enter entry) (Reading.enter entry)
  enroll (e : Element) (enrolment : Enrolment) :
    T (ctx.enroll e enrolment) (ctx'.enroll e enrolment)

structure HandlersRelated (ctx ctx' : Context) (T : ∀ ⦃α : Type⦄, Reading α → Reading α → Prop)
    (handlers : Table Handler) : Prop where
  parse {uri : String} {handler : Handler} (h : handlers.get? uri = some handler)
      (defaults : Defaults) (e : Element) :
    T (handler.parse ⟨ctx, defaults⟩ e) (handler.parse ⟨ctx', defaults⟩ e)
  decorate {uri : String} {handler : Handler} (h : handlers.get? uri = some handler)
      (defaults : Defaults) (e : Element) (holder : Holder) (name : Option String) :
    T (handler.decorate ⟨ctx, defaults⟩ e holder name)
      (handler.decorate ⟨ctx', defaults⟩ e holder name)

section

variable {ctx ctx' : Context} {T : ∀ ⦃α : Type⦄, Reading α → Reading α → Prop}
  {reader : DocumentReader} {handlers : Table Handler} {α β : Type}

theorem HandlersRelated.of_nil (hh : handlers = []) : HandlersRelated ctx ctx' T handlers := by
  subst hh
  constructor
  · intro uri handler h
    cases h
  · intro uri handler h
    cases h

namespace ParseRelation

theorem ite (b : Bool) {act act' other other' : Reading α} (ha : T act act')
    (ho : T other other') :
    T (if b then act else other) (if b then act' else other') := by
  cases b with
  | true => exact ha
  | false => exact ho

variable (hT : ParseRelation ctx ctx' T)
include hT

theorem error (fault : Fault) (e : Element) (cause : Option Failure) :
    T (ctx.error fault e cause) (ctx'.error fault e cause) :=
  hT.report _ _ _ _

theorem foldlM {step step' : β → α → Reading β} (h : ∀ b a, T (step b a) (step' b a)) (l : List α)
    (b : β) : T (l.foldlM step b) (l.foldlM step' b) := by
  induction l generalizing b with
  | nil => exact hT.done b
  | cons a l ih =>
    rw [List.foldlM_cons, List.foldlM_cons]
    exact hT.bind (h b a) ih

theorem takeNames (defaults : Defaults) (names : List String) (e : Element) :
    T (Scope.takeNames ⟨ctx, defaults⟩ names e) (Scope.takeNames ⟨ctx', defaults⟩ names e) := by
  refine hT.session (fun s => ?_) (fun s entries => rfl) fun s entries => rfl
  dsimp only
  cases (names.filter (· ≠ "")).find? (s.usedNames.contains ·) with
  | some name => exact hT.bind (hT.error _ _ _) fun _ => hT.done _
  | none => exact hT.bind (hT.names _) fun _ => hT.done _

theorem namesOf (e : Element) : T (Scope.namesOf e) (Scope.namesOf e) := by
  unfold Scope.namesOf
  dsimp only
  split
  · exact hT.bind (hT.remark _) fun _ => hT.done _
  · exact hT.done _

theorem keep (defaults : Defaults) (e : Element) (parsed : Except Fault PropertyValue)
    (store : PropertyValue → Definition) (d : Definition) :
    T (Scope.keep ⟨ctx, defaults⟩ e parsed store d) (Scope.keep ⟨ctx', defaults⟩ e parsed store d) := by
  cases parsed with
  | ok v => exact hT.done _
  | error fault => exact hT.bind (hT.error _ _ _) fun _ => hT.done _

theorem addChild (defaults : Defaults) (d : Definition) (e : Element) :
    T (Scope.addChild ⟨ctx, defaults⟩ d e) (Scope.addChild ⟨ctx', defaults⟩ d e) := by
  unfold Scope.addChild
  split
  · exact hT.done _
  split
  · exact hT.done _
  split
  · exact hT.keep _ _ _ _ _
  split
  · exact hT.keep _ _ _ _ _
  · exact hT.done _

theorem parseNamed (defaults : Defaults) (e : Element) (name : String) (aliases : List String) :
    T (Scope.parseNamed ⟨ctx, defaults⟩ e name aliases)
      (Scope.parseNamed ⟨ctx', defaults⟩ e name aliases) := by
  refine hT.bind (hT.takeNames _ _ _) fun taken => ParseRelation.ite (!taken) (hT.done _) ?_
  unfold Scope.parseDefinition
  have hattributes : Scope.attributesOf ⟨ctx', defaults⟩ e (e.attr? "class") name =
      Scope.attributesOf ⟨ctx, defaults⟩ e (e.attr? "class") name := by
    obtain ⟨reporter, importer, rfl⟩ := hT.alike
    rfl
  rw [hattributes]
  cases Scope.attributesOf ⟨ctx, defaults⟩ e (e.attr? "class") name with
  | error fault => exact hT.bind (hT.error _ _ _) fun _ => hT.done _
  | ok d =>
    refine hT.bind (hT.foldlM (hT.addChild defaults) _ _) fun d => ?_
    exact hT.session (fun s => hT.done _) (fun s entries => rfl) fun s entries => rfl

theorem parseBean (defaults : Defaults) (e : Element) :
    T (Scope.parseBean ⟨ctx, defaults⟩ e) (Scope.parseBean ⟨ctx', defaults⟩ e) := by
  rw [Scope.parseBean_eq, Scope.parseBean_eq]
  refine hT.bind (hT.namesOf e) fun ⟨name, aliases⟩ => ?_
  dsimp only
  split
  · exact hT.bind (hT.error _ _ _) fun _ => hT.done _
  · exact hT.parseNamed _ _ _ _

theorem decorateBy (hh : HandlersRelated ctx ctx' T handlers) (defaults : Defaults) (uri : String)
    (node : Element) (name : Option String) (holder : Holder) :
    T (Scope.decorateBy ⟨ctx, defaults⟩ handlers uri node name holder)
      (Scope.decorateBy ⟨ctx', defaults⟩ handlers uri node name holder) := by
  unfold Scope.decorateBy
  split
  · exact hT.done _
  cases h : handlers.get? uri with
  | some handler => exact hh.decorate h _ _ _ _
  | none => exact hT.bind (hT.remark _) fun _ => hT.done _

theorem decorate (hh : HandlersRelated ctx ctx' T handlers) (defaults : Defaults) (e : Element)
    (holder : Holder) :
    T (Scope.decorate ⟨ctx, defaults⟩ handlers e holder)
      (Scope.decorate ⟨ctx', defaults⟩ handlers e holder) := by
  refine hT.bind (hT.foldlM (fun holder name => ?_) _ _) fun holder => ?_
  · cases foreignUri? name with
    | some uri => exact hT.decorateBy hh _ _ _ _ _
    | none => exact hT.done _
  · refine hT.foldlM (fun holder child => ?_) _ _
    exact ParseRelation.ite child.isDefault (hT.done _) (hT.decorateBy hh _ _ _ _ _)

theorem parseCustom (hh : HandlersRelated ctx ctx' T handlers) (defaults : Defaults) (e : Element) :
    T (do let _ ← Scope.parseCustom ⟨ctx, defaults⟩ handlers e)
      (do let _ ← Scope.parseCustom ⟨ctx', defaults⟩ handlers e) := by
  refine hT.bind ?_ fun _ => hT.done ()
  unfold Scope.parseCustom
  cases h : e.uri.bind handlers.get? with
  | some handler =>
    obtain ⟨uri, -, hhandler⟩ := Option.bind_eq_some_iff.mp h
    exact hh.parse hhandler _ _
  | none => exact hT.bind (hT.error _ _ _) fun _ => hT.done _

theorem profilesAccepted (e : Element) :
    T (reader.profilesAccepted ctx e) (reader.profilesAccepted ctx' e) := by
  obtain ⟨reporter, importer, rfl⟩ := hT.alike
  unfold DocumentReader.profilesAccepted
  refine ParseRelation.ite _ (hT.done _) ?_
  dsimp only
  split
  · exact hT.bind (hT.error _ _ _) fun _ => hT.done _
  · exact hT.done _
  · exact hT.bind (hT.remark _) fun _ => hT.done _

theorem admits (e : Element) : T (reader.admits ctx e) (reader.admits ctx' e) :=
  ParseRelation.ite e.isDefault (hT.profilesAccepted e) (hT.done true)

end ParseRelation

namespace StepRelation

variable (hT : StepRelation ctx ctx' T)
include hT

theorem fire {event : Event} (h : JournalEntry.Silent (.event event)) :
    T (ctx.fire event) (ctx'.fire event) := by
  obtain ⟨reporter, importer, rfl⟩ := hT.alike
  unfold Context.fire
  dsimp only
  split
  · exact hT.enter h
  · exact hT.done ()

theorem keepBean (hh : HandlersRelated ctx ctx' T reader.handlers) (defaults : Defaults)
    (e : Element) (parsed : Option Holder) :
    T (reader.keepBean ⟨ctx, defaults⟩ e parsed) (reader.keepBean ⟨ctx', defaults⟩ e parsed) := by
  cases parsed with
  | none => exact hT.done ()
  | some holder =>
    rw [DocumentReader.keepBean_some, DocumentReader.keepBean_some]
    exact hT.bind (hT.decorate hh _ e holder) fun holder => hT.enroll e (.bean holder)

theorem beanElement (hh : HandlersRelated ctx ctx' T reader.handlers) (defaults : Defaults)
    (e : Element) :
    T (reader.beanElement ⟨ctx, defaults⟩ e) (reader.beanElement ⟨ctx', defaults⟩ e) := by
  rw [DocumentReader.beanElement_eq, DocumentReader.beanElement_eq]
  exact hT.bind (hT.parseBean defaults e) fun parsed => hT.keepBean hh defaults e parsed

theorem aliasNamed (e : Element) : T (ctx.aliasNamed e) (ctx'.aliasNamed e) := by
  have hregister : T (ctx.registerAlias e) (ctx'.registerAlias e) :=
    hT.enroll e (.naming (e.attr "name") (e.attr "alias"))
  have hnamed := ParseRelation.ite
    (!Text.allBlank (e.attr "name") && !Text.allBlank (e.attr "alias")) hregister (hT.done ())
  exact ParseRelation.ite _ (hT.bind (hT.error .emptyAlias e none) fun _ => hnamed) hnamed

theorem aliasElement (e : Element) : T (ctx.aliasElement e) (ctx'.aliasElement e) := by
  rw [Context.aliasElement_eq, Context.aliasElement_eq]
  exact ParseRelation.ite _ (hT.bind (hT.error .emptyName e none) fun _ => hT.aliasNamed e)
    (hT.aliasNamed e)

theorem scope {outer : Defaults} {e : Element}
    (hinside : T (reader.readInside ⟨ctx, outer.enter e⟩ e)
      (reader.readInside ⟨ctx', outer.enter e⟩ e)) :
    T (reader.readScope ctx outer e) (reader.readScope ctx' outer e) := by
  have hsource : ctx'.source e = ctx.source e := by
    obtain ⟨reporter, importer, rfl⟩ := hT.alike
    rfl
  rw [DocumentReader.readScope_eq, DocumentReader.readScope_eq, hsource]
  refine hT.bind (hT.admits e) fun accepted => ParseRelation.ite accepted ?_ (hT.done ())
  refine hT.bind (hT.fire (.defaults _ _)) fun _ => ?_
  refine hT.bind (hT.enter (.opened e)) fun _ => ?_
  exact hT.bind (hT.fresh hinside) fun _ => hT.enter (.closed e)

end StepRelation

end

namespace StepRelation

variable {ctx ctx' : Context} {T : ∀ ⦃α : Type⦄, Reading α → Reading α → Prop}
  {reader : DocumentReader}

theorem readElement (hT : StepRelation ctx ctx' T) (hh : HandlersRelated ctx ctx' T reader.handlers)
    (defaults : Defaults) (e : Element)
    (hi : e.isDefault = true → e.kind = .importing → T (ctx.importElement e) (ctx'.importElement e))
    (hs : e.isDefault = true → e.kind = .beans →
      T (reader.readScope ctx defaults e) (reader.readScope ctx' defaults e)) :
    T (reader.readElement ⟨ctx, defaults⟩ e) (reader.readElement ⟨ctx', defaults⟩ e) := by
  unfold DocumentReader.readElement
  split
  case isTrue hd =>
    cases hk : e.kind with
    | importing => exact hi hd hk
    | aliasing => exact hT.aliasElement e
    | bean => exact hT.beanElement hh defaults e
    | beans => exact hs hd hk
    | other => exact hT.done ()
  case isFalse => exact hT.parseCustom hh _ _

mutual

theorem readScope (hT : StepRelation ctx ctx' T) (hh : HandlersRelated ctx ctx' T reader.handlers)
    (outer : Defaults) : (root : Element) →
    (∀ e, root.Imports e → T (ctx.importElement e) (ctx'.importElement e)) →
    T (reader.readScope ctx outer root) (reader.readScope ctx' outer root)
  | ⟨tag, uri, attrs, contents, line⟩ => fun hi => by
    refine hT.scope ?_
    unfold DocumentReader.readInside
    split
    case isTrue hd =>
      exact readContents hT hh _ contents (fun e hm he hk => hi e (.child hd hm he hk))
        fun inner e hm hn hk h => hi e (.nested hd hm hn hk h)
    case isFalse => exact hT.parseCustom hh _ _

theorem readContents (hT : StepRelation ctx ctx' T) (hh : HandlersRelated ctx ctx' T reader.handlers)
    (defaults : Defaults) : (contents : List (Content Element)) →
    (∀ e, .element e ∈ contents → e.isDefault = true → e.kind = .importing →
      T (ctx.importElement e) (ctx'.importElement e)) →
    (∀ inner e, .element inner ∈ contents → inner.isDefault = true → inner.kind = .beans →
      inner.Imports e → T (ctx.importElement e) (ctx'.importElement e)) →
    T (reader.readContents ⟨ctx, defaults⟩ contents) (reader.readContents ⟨ctx', defaults⟩ contents)
  | [] => fun _ _ => by
    rw [DocumentReader.readContents, DocumentReader.readContents]
    exact hT.done ()
  | .text s :: rest => fun hc hn => by
    rw [DocumentReader.readContents, DocumentReader.readContents]
    exact readContents hT hh defaults rest (fun e hm => hc e (List.mem_cons_of_mem _ hm))
      fun inner e hm => hn inner e (List.mem_cons_of_mem _ hm)
  | .element e :: rest => fun hc hn => by
    rw [DocumentReader.readContents_element, DocumentReader.readContents_element]
    refine hT.bind (hT.readElement hh defaults e (hc e List.mem_cons_self) fun hd hk => ?_)
      fun _ => ?_
    · exact readScope hT hh defaults e fun e' h => hn e e' List.mem_cons_self hd hk h
    · exact readContents hT hh defaults rest (fun e hm => hc e (List.mem_cons_of_mem _ hm))
        fun inner e hm => hn inner e (List.mem_cons_of_mem _ hm)

end

end StepRelation

end BeanCatalog
