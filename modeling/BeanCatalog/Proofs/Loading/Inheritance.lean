import BeanCatalog.Proofs.Loading.ImportEvents
import BeanCatalog.Proofs.Reading.Settings
import BeanCatalog.Xml.Document

namespace BeanCatalog

open Element

/-- A place in a document where something may be declared, with the scopes around it from the
innermost outwards. -/
inductive Site where
  | scope (e : Element) (outer : List Element)
  | bean (e : Element) (scopes : List Element)

namespace Element

variable (judge : Element → Except ProfileError Bool)

mutual

/-- The scopes that the profiles accept and the beans in them, in the order of the document. -/
def sites (outer : List Element) : Element → List Site
  | ⟨tag, uri, attributes, contents, line⟩ =>
    match isDefaultNamespace uri, judge ⟨tag, uri, attributes, contents, line⟩ with
    | false, _ => [.scope ⟨tag, uri, attributes, contents, line⟩ outer]
    | true, .ok true =>
      .scope ⟨tag, uri, attributes, contents, line⟩ outer ::
        sitesIn (⟨tag, uri, attributes, contents, line⟩ :: outer) contents
    | true, _ => []

def sitesIn (scopes : List Element) : List (Content Element) → List Site
  | [] => []
  | .text _ :: rest => sitesIn scopes rest
  | .element e :: rest =>
    (match e.isDefault, e.kind with
      | true, .bean => [.bean e scopes]
      | true, .beans => sites scopes e
      | _, _ => []) ++ sitesIn scopes rest

end

end Element

def JournalEntry.declares : JournalEntry → Bool
  | .registering calls => calls.any fun
    | .define .. => true
    | .addAlias .. => false
  | .event (.defaults ..) | .event (.component ..) => true
  | _ => false

/-- What is told of a site, if it comes to that: the defaults that hold in a scope, or the
definition of a bean with the settings that hold for it. -/
inductive Site.Tells (ctx : Context) : Site → List JournalEntry → Prop
  | passed (site : Site) : Tells ctx site []
  | scope (e : Element) (outer : List Element) :
      Tells ctx (.scope e outer)
        [.event (.defaults (inherited? (e :: outer)) (ctx.source e))]
  | bean {e : Element} {scopes : List Element} {holder : Holder} {fired : List JournalEntry}
      (hp : ∃ s t, Scope.parseBean ⟨ctx, scopes.map .ofElement⟩ e s = (.ok (some holder), t))
      (hd : holder.definition.Follows e scopes)
      (hn : e.givenName ≠ "" → holder.name = e.givenName)
      (hf : fired = [] ∨ fired = [.event (.component holder (ctx.source e))]) :
      Tells ctx (.bean e scopes) (.registering holder.calls :: fired)

inductive Accounts (ctx : Context) : List Site → List JournalEntry → Prop
  | nil : Accounts ctx [] []
  | cons {site : Site} {sites : List Site} {told rest : List JournalEntry} (h : site.Tells ctx told)
      (hr : Accounts ctx sites rest) : Accounts ctx (site :: sites) (told ++ rest)

namespace Accounts

variable {ctx : Context} {sites sites' : List Site} {first rest : List JournalEntry}

theorem passed (sites : List Site) : Accounts ctx sites [] := by
  induction sites with
  | nil => exact .nil
  | cons site sites ih => exact .cons (.passed site) ih

theorem one {site : Site} (h : site.Tells ctx first) : Accounts ctx [site] first := by
  have hone := Accounts.cons h .nil
  rwa [List.append_nil] at hone

theorem append (hfirst : Accounts ctx sites first) (hrest : Accounts ctx sites' rest) :
    Accounts ctx (sites ++ sites') (first ++ rest) := by
  induction hfirst with
  | nil => exact hrest
  | cons h _ ih =>
    rw [List.append_assoc]
    exact .cons h ih

end Accounts

theorem JournalEntry.Talk.declares {entry : JournalEntry} (h : entry.Talk) :
    entry.declares = false := by
  cases h <;> rfl

def Session.Aside (s t : Session) : Prop :=
  ∃ journal, s.Entered journal t ∧ Level journal ∧ ∀ entry ∈ outside 0 journal, entry.Talk

namespace Session.Aside

variable {s t u : Session}

theorem refl (s : Session) : s.Aside s :=
  ⟨[], .refl s, .nil, fun _ hm => absurd hm List.not_mem_nil⟩

theorem trans (hst : s.Aside t) (htu : t.Aside u) : s.Aside u := by
  obtain ⟨first, hfirst, hlevel, htalk⟩ := hst
  obtain ⟨rest, hrest, hlevel', htalk'⟩ := htu
  refine ⟨first ++ rest, hfirst.trans hrest, hlevel.append hlevel', fun entry hm => ?_⟩
  rw [hlevel.outside_append] at hm
  exact (List.mem_append.mp hm).elim (htalk entry) (htalk' entry)

theorem talk {journal : List JournalEntry} (hj : s.Entered journal t)
    (ht : ∀ entry ∈ journal, entry.Talk) : s.Aside t := by
  have hplain : ∀ entry ∈ journal, entry.marksLoad = false :=
    fun entry hm => (ht entry hm).marksLoad
  refine ⟨journal, hj, .plain hplain, ?_⟩
  rw [outside_plain hplain]
  exact ht

theorem load {r : Resource} {completed : Bool} {inside : List JournalEntry}
    (hj : s.Entered (.began r :: (inside ++ [.ended r completed])) t) (hl : Level inside) :
    s.Aside t := by
  refine ⟨_, hj, .load hl .nil, fun entry hm => ?_⟩
  rw [hl.outside_load] at hm
  cases hm

end Session.Aside

theorem Reading.Talks.aside {α : Type} {act : Reading α} (h : Talks act) (s : Session) :
    s.Aside (act s).2 := by
  obtain ⟨-, journal, hj, ht⟩ := h s
  exact .talk hj ht

def Reading.Accounted {α : Type} (ctx : Context) (sites : List Site) (act : Reading α) : Prop :=
  ∀ s : Session, ∃ journal, s.Entered journal (act s).2 ∧ Level journal ∧
    Accounts ctx sites ((outside 0 journal).filter (·.declares))

namespace Reading.Accounted

variable {α β : Type} {ctx : Context} {sites sites' : List Site}

theorem aside {act : Reading α} (h : ∀ s : Session, s.Aside (act s).2) : Accounted ctx [] act := by
  intro s
  obtain ⟨journal, hj, hl, ht⟩ := h s
  refine ⟨journal, hj, hl, ?_⟩
  have hnone : (outside 0 journal).filter (·.declares) = [] := by
    apply List.filter_eq_nil_iff.mpr
    intro entry hm
    rw [(ht entry hm).declares]
    exact nofun
  rw [hnone]
  exact .nil

theorem talks {act : Reading α} (h : Talks act) : Accounted ctx [] act := aside h.aside

theorem bindGiven {act : Reading α} {next : α → Reading β} {P : α → Prop}
    (ha : Accounted ctx sites act) (hg : Gives act P)
    (hn : ∀ a, P a → Accounted ctx sites' (next a)) :
    Accounted ctx (sites ++ sites') (act >>= next) := by
  intro s
  obtain ⟨first, hfirst, hlevel, hsites⟩ := ha s
  rcases h : act s with ⟨f | a, t⟩
  · rw [bind_error next h]
    rw [h] at hfirst
    refine ⟨first, hfirst, hlevel, ?_⟩
    -- Nothing is told of the sites that the failure keeps from being read.
    have hpassed := hsites.append (.passed sites')
    rwa [List.append_nil] at hpassed
  · rw [bind_ok next h]
    rw [h] at hfirst
    obtain ⟨rest, hrest, hlevel', hsites'⟩ := hn a (hg s a t h) t
    refine ⟨first ++ rest, hfirst.trans hrest, hlevel.append hlevel', ?_⟩
    rw [hlevel.outside_append, List.filter_append]
    exact hsites.append hsites'

theorem bind {act : Reading α} {next : α → Reading β} (ha : Accounted ctx sites act)
    (hn : ∀ a, Accounted ctx sites' (next a)) : Accounted ctx (sites ++ sites') (act >>= next) :=
  ha.bindGiven (.any act) fun a _ => hn a

theorem passed (sites : List Site) (a : α) : Accounted ctx sites (pure a) := fun s =>
  ⟨[], .refl s, .nil, .passed sites⟩

theorem ite (b : Bool) {act other : Reading α} (ha : Accounted ctx sites act)
    (ho : Accounted ctx sites other) : Accounted ctx sites (if b then act else other) := by
  cases b with
  | true => exact ha
  | false => exact ho

theorem plain {act : Reading α} {sites : List Site}
    (h : ∀ s : Session, ∃ journal, s.Entered journal (act s).2 ∧
      (∀ entry ∈ journal, entry.marksLoad = false) ∧
        Accounts ctx sites (journal.filter (·.declares))) : Accounted ctx sites act := by
  intro s
  obtain ⟨journal, hj, hplain, ha⟩ := h s
  exact ⟨journal, hj, .plain hplain, by rwa [outside_plain hplain]⟩

theorem enter {entry : JournalEntry} (hm : entry.marksLoad = false)
    (ha : Accounts ctx sites ([entry].filter (·.declares))) : Accounted ctx sites (enter entry) :=
  .plain fun _ => ⟨[entry], rfl, fun _ he => List.mem_singleton.mp he ▸ hm, ha⟩

theorem withFreshNames {act : Reading Unit} (h : Accounted ctx sites act) :
    Accounted ctx sites (withFreshNames act) := fun s => h { s with usedNames := [] }

end Reading.Accounted

theorem Context.endImport_talks (ctx : Context) (e : Element) (location : String)
    (outcome : LoadOutcome) : Reading.Talks (ctx.endImport e location outcome) := by
  obtain ⟨o, loaded⟩ := outcome
  have hfire := Reading.Talks.fire ctx (.imported location loaded (ctx.source e))
  cases o with
  | ok count =>
    refine .bind (.bind (.remark _) fun _ => ?_) fun _ => hfire
    cases loaded with
    | nil => exact .take _ _ _
    | cons r loaded => exact (Reading.Talks.parses ctx none).done ()
  | error f =>
    cases hc : (LocationKind.of location).contains f with
    | true =>
      rw [endImport_contained hc]
      exact .bind (.take _ _ _) fun _ => hfire
    | false =>
      rw [endImport_escapes hc]
      exact .throw f

namespace Loader

variable {l : Loader} (hh : l.documents.handlers = [])
include hh

theorem loadResource_aside (depth : Nat) (r : Resource) (s : Session) :
    s.Aside ((l.importer depth).loadResource r s).2 := by
  cases depth with
  | zero => exact .refl s
  | succ depth =>
    change s.Aside (l.loadResource (l.importer depth) r s).2
    rw [loadResource_apply]
    split
    · exact .refl s
    split
    · exact .refl s
    · exact .refl s
    · let begun : Session := { s with entries := .remark (.loading r.description) :: s.entries }
      have hrelated := (l.level_law.relation.layered hh).importer depth
      obtain ⟨inside, hinside, hlevel⟩ :=
        (l.level_law.relation.layered hh).readResource hrelated r (begun.beginning r)
      have hremark : s.Entered [.remark (.loading r.description)] begun := rfl
      have htalk : s.Aside begun :=
        .talk hremark fun entry hm => List.mem_singleton.mp hm ▸ .remark _
      exact htalk.trans (.load hinside.load hlevel)

theorem loads_aside {depth : Nat} {loads : List (Resource × Except Failure Nat)} {s u : Session}
    (h : (l.importer depth).Loads s loads u) : s.Aside u := by
  induction h with
  | none s => exact .refl s
  | @failed r f s t h =>
    have hload := loadResource_aside hh depth r s
    rwa [h] at hload
  | @next r n rest s t u h _ ih =>
    have hload := loadResource_aside hh depth r s
    rw [h] at hload
    exact hload.trans ih

theorem importElement_aside (depth : Nat) (r : Resource) (e : Element) (s : Session) :
    s.Aside ((l.context (l.importer depth) r).importElement e s).2 := by
  rcases (l.context (l.importer depth) r).importElement_cases e s with
    ⟨-, hblank⟩ | ⟨-, ⟨err, -, hthrow⟩ | ⟨location, o, loaded, t, -, hload, hend⟩⟩
  · rw [hblank]
    exact (Reading.Talks.take _ _ _).aside s
  · rw [hthrow]
    exact .refl s
  · obtain ⟨loads, u, remarks, hloads, hremarks, -⟩ := loadNamed_loads hload
    have htalk : u.Aside t := .talk hremarks (JournalEntry.Talk.remarks remarks)
    rw [hend]
    exact ((loads_aside hh hloads).trans htalk).trans
      ((Context.endImport_talks _ e location (o, loaded)).aside t)

end Loader

theorem Reading.registered_declares (r : Registry Definition)
    (calls : List (RegistryCall Definition)) :
    (registered r calls).filter (·.declares) =
      [JournalEntry.registering calls].filter (·.declares) := by
  have hremarks : (replacedRemarks (r.calls (fun _ _ => false) calls).replacements).filter
      (·.declares) = [] := by
    apply List.filter_eq_nil_iff.mpr
    intro entry hm
    obtain ⟨replacement, -, rfl⟩ := List.mem_map.mp hm
    exact nofun
  unfold registered
  rw [List.filter_cons, List.filter_cons, hremarks]
  rfl

theorem Reading.registered_append_declares (r : Registry Definition)
    (calls : List (RegistryCall Definition)) {rest fired : List JournalEntry}
    (h : rest.filter (·.declares) = fired.filter (·.declares)) :
    (registered r calls ++ rest).filter (·.declares) =
      (.registering calls :: fired).filter (·.declares) := by
  rw [List.filter_append, registered_declares, h, ← List.filter_append]
  rfl

namespace Context

variable {ctx : Context}

variable (ctx) in
theorem enroll_told (e : Element) (enrolment : Enrolment) (s : Session) :
    ∃ journal, s.Entered journal (ctx.enroll e enrolment s).2 ∧
      (∀ entry ∈ journal, entry.marksLoad = false) ∧
      ∃ fired, (fired = [] ∨ fired = [.event (enrolment.event (ctx.source e))]) ∧
        journal.filter (·.declares) =
          (.registering enrolment.calls :: fired).filter (·.declares) := by
  have hplain (rest : List JournalEntry) (hrest : ∀ entry ∈ rest, entry.marksLoad = false) :
      ∀ entry ∈ Reading.registered s.registry enrolment.calls ++ rest, entry.marksLoad = false :=
    fun entry hm => (List.mem_append.mp hm).elim (registered_plain _ _ entry) (hrest entry)
  cases hc : (s.registry.calls (fun _ _ => false) enrolment.calls).refusal with
  | none =>
    rw [enroll_accepted ctx e hc]
    let event := JournalEntry.event (enrolment.event (ctx.source e))
    refine ⟨_, rfl, hplain _ fun entry hm => ?_, if ctx.listening then [event] else [], ?_,
      Reading.registered_append_declares _ _ rfl⟩
    · split at hm
      · rw [List.mem_singleton.mp hm]
        rfl
      · cases hm
    · split
      · exact .inr rfl
      · exact .inl rfl
  | some refusal =>
    obtain ⟨remarks, ht⟩ := enroll_refused ctx e hc
    rw [ht]
    let p := ctx.problem enrolment.fault e (some (.refused refusal))
    have htalk : ∀ entry ∈ .problem .error p :: remarks.map JournalEntry.remark, entry.Talk := by
      intro entry hm
      rcases List.mem_cons.mp hm with rfl | hm
      · exact .problem _ _
      · exact .remarks remarks entry hm
    refine ⟨_, rfl, hplain _ fun entry hm => (htalk entry hm).marksLoad, [], .inl rfl,
      Reading.registered_append_declares _ _ (List.filter_eq_nil_iff.mpr fun entry hm => ?_)⟩
    rw [(htalk entry hm).declares]
    exact nofun

theorem enroll_alias_accounted (e : Element) (name alt : String) :
    Reading.Accounted ctx [] (ctx.enroll e (.naming name alt)) := by
  refine .plain fun s => ?_
  obtain ⟨journal, hj, hplain, fired, hfired, htold⟩ := ctx.enroll_told e (.naming name alt) s
  refine ⟨journal, hj, hplain, ?_⟩
  rw [htold]
  rcases hfired with rfl | rfl <;> exact .nil

theorem enroll_bean_accounted {e : Element} {scopes : List Element} {holder : Holder}
    (hp : ∃ s t, Scope.parseBean ⟨ctx, scopes.map .ofElement⟩ e s = (.ok (some holder), t))
    (hd : holder.definition.Follows e scopes) (hn : e.givenName ≠ "" → holder.name = e.givenName) :
    Reading.Accounted ctx [.bean e scopes] (ctx.enroll e (.bean holder)) := by
  refine .plain fun s => ?_
  obtain ⟨journal, hj, hplain, fired, hfired, htold⟩ := ctx.enroll_told e (.bean holder) s
  refine ⟨journal, hj, hplain, ?_⟩
  have hall : (.registering holder.calls :: fired).filter (·.declares) =
      .registering holder.calls :: fired := by
    rcases hfired with rfl | rfl <;> rfl
  have htells : Accounts ctx [.bean e scopes] (.registering holder.calls :: fired) :=
    .one (.bean hp hd hn hfired)
  rw [htold]
  exact hall.symm ▸ htells

theorem aliasElement_accounted (e : Element) : Reading.Accounted ctx [] (ctx.aliasElement e) := by
  have herror (fault : Fault) : Reading.Accounted ctx [] (ctx.error fault e) :=
    .talks (.take _ _ _)
  have hnamed : Reading.Accounted ctx [] (ctx.aliasNamed e) := by
    have hregister : Reading.Accounted ctx [] (ctx.registerAlias e) :=
      enroll_alias_accounted e (e.attr "name") (e.attr "alias")
    have hguarded := Reading.Accounted.ite
      (!Text.allBlank (e.attr "name") && !Text.allBlank (e.attr "alias")) hregister (.passed [] ())
    exact .ite _ (.bind (herror .emptyAlias) fun _ => hguarded) hguarded
  rw [aliasElement_eq]
  exact .ite _ (.bind (herror .emptyName) fun _ => hnamed) hnamed

end Context

namespace DocumentReader

variable {reader : DocumentReader} {ctx : Context}

theorem decorate_nil (scope : Scope) (e : Element) (holder : Holder) :
    Reading.Gives (scope.decorate [] e holder) (· = holder) := by
  have hby (uri : String) (node : Element) (name : Option String) :
      Reading.Gives (scope.decorateBy [] uri node name holder) (· = holder) := by
    unfold Scope.decorateBy
    split
    · exact .pure rfl
    · exact .bind (.any _) fun _ _ => .pure rfl
  refine .bind (.foldlM (Q := (· = holder)) (fun b name hb => ?_) rfl _) fun b hb => ?_
  · subst hb
    cases foreignUri? name with
    | some uri => exact hby uri e _
    | none => exact .pure rfl
  · refine .foldlM (Q := (· = holder)) (fun b child hb => ?_) hb _
    subst hb
    split
    · exact .pure rfl
    · exact hby _ child none

theorem beanElement_accounted (hh : reader.handlers = []) (scopes : List Element) (e : Element) :
    Reading.Accounted ctx [.bean e scopes] (reader.beanElement ⟨ctx, scopes.map .ofElement⟩ e) := by
  have hparses := Reading.Talks.parses ctx none
  have hgiven : Reading.Gives (Scope.parseBean ⟨ctx, scopes.map .ofElement⟩ e) fun parsed =>
      (∃ s t, Scope.parseBean ⟨ctx, scopes.map .ofElement⟩ e s = (.ok parsed, t)) ∧
        ∀ holder, parsed = some holder →
          holder.definition.Follows e scopes ∧ (e.givenName ≠ "" → holder.name = e.givenName) :=
    fun s parsed t h => ⟨⟨s, t, h⟩, Scope.parseBean_follows rfl e s parsed t h⟩
  rw [beanElement_eq]
  change Reading.Accounted ctx ([] ++ [.bean e scopes]) _
  refine .bindGiven (.talks (hparses.parseBean _ e)) hgiven fun parsed ⟨hp, hparsed⟩ => ?_
  cases parsed with
  | none => exact .passed _ ()
  | some holder =>
    obtain ⟨hd, hn⟩ := hparsed holder rfl
    rw [keepBean_some, hh]
    change Reading.Accounted ctx ([] ++ [.bean e scopes]) _
    refine .bindGiven (.talks (hparses.decorate (.of_nil rfl) _ e holder))
      (decorate_nil _ e holder) ?_
    rintro _ rfl
    exact Context.enroll_bean_accounted hp hd hn

end DocumentReader

namespace Loader

variable {l : Loader} (hh : l.documents.handlers = []) (depth : Nat) (r : Resource)

theorem scope_accounted {outer : List Element} {e : Element} {inner : List Site}
    (ha : l.documents.admits (l.context (l.importer depth) r) e = pure true)
    (hi : Reading.Accounted (l.context (l.importer depth) r) inner
      (l.documents.readInside ⟨l.context (l.importer depth) r, (e :: outer).map .ofElement⟩ e)) :
    Reading.Accounted (l.context (l.importer depth) r) (.scope e outer :: inner)
      (l.documents.readScope (l.context (l.importer depth) r) (outer.map .ofElement) e) := by
  let ctx := l.context (l.importer depth) r
  have hvalues : (Defaults.enter (outer.map .ofElement) e).resolve = inherited? (e :: outer) :=
    funext (resolve_inherited (e :: outer))
  have hfire : Reading.Accounted ctx [.scope e outer]
      (ctx.fire (.defaults (inherited? (e :: outer)) (ctx.source e))) :=
    .ite ctx.listening (.enter rfl (.one (.scope e outer))) (.passed _ ())
  rw [DocumentReader.readScope_admitted ha, hvalues]
  have hopened : Reading.Accounted ctx [] (Reading.enter (.opened e)) := .enter rfl .nil
  have hclosed : Reading.Accounted ctx [] (Reading.enter (.closed e)) := .enter rfl .nil
  have hread := Reading.Accounted.bind hfire fun _ =>
    .bind hopened fun _ =>
      .bind hi.withFreshNames fun _ => hclosed
  rw [List.append_nil] at hread
  exact hread

theorem readScope_talks (outer : Defaults) {e : Element} (hd : e.isDefault = true)
    (hj : l.documents.judge l.environment e ≠ .ok true) :
    Reading.Talks (l.documents.readScope (l.context (l.importer depth) r) outer e) := by
  cases h : l.documents.judge l.environment e with
  | error err =>
    rw [DocumentReader.readScope_invalid outer hd h]
    exact .take _ _ _
  | ok accepted =>
    cases accepted with
    | true => exact absurd h hj
    | false =>
      rw [DocumentReader.readScope_rejected outer hd h]
      exact .remark _

include hh

theorem parseCustom_talks (defaults : Defaults) (e : Element) :
    Reading.Talks (do
      let scope : Scope := ⟨l.context (l.importer depth) r, defaults⟩
      let _ ← scope.parseCustom l.documents.handlers e) :=
  (Reading.Talks.parses _ none).parseCustom (.of_nil hh) _ e

theorem foreign_accounted (outer : List Element) {e : Element} (hd : e.isDefault = false) :
    Reading.Accounted (l.context (l.importer depth) r) [.scope e outer]
      (l.documents.readScope (l.context (l.importer depth) r) (outer.map .ofElement) e) := by
  refine scope_accounted depth r (DocumentReader.admits_foreign hd) ?_
  unfold DocumentReader.readInside
  rw [hd]
  exact .talks (parseCustom_talks hh depth r _ e)

mutual

theorem readScope_accounted (outer : List Element) : (e : Element) →
    Reading.Accounted (l.context (l.importer depth) r)
      (e.sites (l.documents.judge l.environment) outer)
      (l.documents.readScope (l.context (l.importer depth) r) (outer.map .ofElement) e)
  | ⟨tag, uri, attributes, contents, line⟩ => by
    let e : Element := ⟨tag, uri, attributes, contents, line⟩
    have hcontents := readContents_accounted (e :: outer) contents
    rw [Element.sites]
    split
    case h_1 hd => exact foreign_accounted hh depth r outer (e := e) hd
    case h_2 hd hj =>
      refine scope_accounted depth r (DocumentReader.admits_accepted (e := e) hd hj) ?_
      rw [DocumentReader.readInside_default (e := e) hd]
      exact hcontents
    case h_3 hd hj => exact .talks (readScope_talks depth r _ (e := e) hd fun h => hj h)

theorem readContents_accounted (scopes : List Element) : (contents : List (Content Element)) →
    Reading.Accounted (l.context (l.importer depth) r)
      (Element.sitesIn (l.documents.judge l.environment) scopes contents)
      (l.documents.readContents ⟨l.context (l.importer depth) r, scopes.map .ofElement⟩ contents)
  | [] => by
    rw [Element.sitesIn, DocumentReader.readContents]
    exact .passed [] ()
  | .text s :: rest => by
    rw [Element.sitesIn, DocumentReader.readContents]
    exact readContents_accounted scopes rest
  | .element e :: rest => by
    rw [Element.sitesIn, DocumentReader.readContents_element]
    refine .bind ?_ fun _ => readContents_accounted scopes rest
    have hscope := readScope_accounted scopes e
    unfold DocumentReader.readElement
    cases e.isDefault with
    | false => exact .talks (parseCustom_talks hh depth r _ e)
    | true =>
      cases e.kind with
      | importing => exact .aside (importElement_aside hh depth r e)
      | aliasing => exact Context.aliasElement_accounted e
      | bean => exact DocumentReader.beanElement_accounted hh scopes e
      | beans => exact hscope
      | other => exact .passed [] ()

end

/-- What a document declares, outside of the loads that its imports make, its scopes and beans
declare one after the other. Each accepted scope has the defaults, and each bean the settings, that
follow from its own attributes and from the scopes around it, whatever else stands in the
document. -/
theorem registerDocument_inherits (root : Element) (s : Session) :
    ∃ journal, s.Entered journal (l.registerDocument (l.importer depth) root r s).2 ∧
      Level journal ∧
      Accounts (l.context (l.importer depth) r) (root.sites (l.documents.judge l.environment) [])
        ((outside 0 journal).filter (·.declares)) := by
  have hget {next : Session → Reading Nat} {sites : List Site}
      (hn : ∀ t, Reading.Accounted (l.context (l.importer depth) r) sites (next t)) :
      Reading.Accounted (l.context (l.importer depth) r) sites
        ((get : Reading Session) >>= next) :=
    .bind (.aside .refl) hn
  have hread := hget fun before => .bind (readScope_accounted hh depth r [] root) fun _ =>
    hget fun after => .passed [] (after.registry.size - before.registry.size)
  rw [List.append_nil] at hread
  exact hread s

end Loader

def heirScope (attributes : Table String) (contents : List (Content Element)) : Element :=
  ⟨"beans", none, attributes, contents, some 1⟩

def heirBean (id : String) (attributes : Table String) : Element :=
  ⟨"bean", none, [("id", id), ("class", "C")] ++ attributes, [], some 1⟩

def heirRoot : Element :=
  heirScope [("default-lazy-init", "true"), ("default-init-method", "open")]
    [.element (heirScope [("default-autowire", "byType"), ("default-lazy-init", "default")]
        [.element (heirBean "a" [("init-method", "")])]),
      .element (heirScope [("profile", "prod"), ("default-autowire", "no")] []),
      .element (heirBean "b" [("lazy-init", "false"), ("autowire", "default")]),
      .element (heirScope [("default-init-method", "begin")] [])]

def heirLoader : Loader where
  workspace :=
    { tree := ⟨[], []⟩
      current := ["tmp", "vfs"]
      packageRoot := ["tmp", "packages"]
      packages := [] }
  parse := Xml.parse
  environment := .create (some ["dev"]) Environment.standardDefaults []
  reporter := .collecting
  listening := true
  documents := {}

def heirRun : Except Failure Nat × Session :=
  heirLoader.registerDocument (heirLoader.importer 0) heirRoot (.bytes [] none) {}

theorem heirRoot_inherits :
    heirLoader.documents.handlers = [] ∧
      heirRun.2.registry.definitions.map (fun (name, d) =>
        (name, d.lazyInit, d.autowire, d.initMethod)) =
          [("a", true, "byType", none), ("b", false, "no", some "open")] ∧
      ∃ told, told.length = 7 ∧
        Accounts (heirLoader.context (heirLoader.importer 0) (.bytes [] none))
          (heirRoot.sites (heirLoader.documents.judge heirLoader.environment) []) told := by
  obtain ⟨hdefinitions, hlength⟩ :
      heirRun.2.registry.definitions.map (fun (name, d) =>
          (name, d.lazyInit, d.autowire, d.initMethod)) =
            [("a", true, "byType", none), ("b", false, "no", some "open")] ∧
        ((outside 0 heirRun.2.journal).filter (·.declares)).length = 7 := by
    decide +kernel
  obtain ⟨journal, hj, -, haccounts⟩ := Loader.registerDocument_inherits (l := heirLoader) rfl 0
    (.bytes [] none) heirRoot {}
  have hjournal : heirRun.2.journal = journal := hj.journal
  rw [hjournal] at hlength
  exact ⟨rfl, hdefinitions, _, hlength, haccounts⟩

end BeanCatalog
