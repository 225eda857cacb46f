import BeanCatalog.Proofs.Loading.Answers
import BeanCatalog.Proofs.Loading.ImportEvents
import BeanCatalog.Proofs.Loading.Trace

namespace BeanCatalog

/-- What is read: a scope, with the defaults around it; contents or an element, with the defaults of the
scope they stand in; or the documents that an import names. -/
inductive Part where
  | scope (outer : Defaults) (e : Element)
  | contents (defaults : Defaults) (contents : List (Content Element))
  | element (defaults : Defaults) (e : Element)
  | documents

inductive Loader.Course (l : Loader) : Resource → Part → (whole : Bool) → List JournalEntry → Prop
  | accepted {r : Resource} {outer : Defaults} {e : Element} {whole : Bool}
      {inside : List JournalEntry} (hd : e.isDefault = true)
      (hj : l.documents.judge l.environment e = .ok true)
      (h : Course l r (.contents (outer.enter e) e.contents) whole inside) :
      Course l r (.scope outer e) whole
        (.event (.defaults (outer.enter e).resolve (r.sourceOf e)) :: .opened e ::
          (inside ++ if whole then [.closed e] else []))
  | foreign {r : Resource} {outer : Defaults} {e : Element} {own : JournalEntry}
      (hd : e.isDefault = false) (ho : r.Blames e own) :
      Course l r (.scope outer e) true
        [.event (.defaults (outer.enter e).resolve (r.sourceOf e)), .opened e, own, .closed e]
  | rejected {r : Resource} {outer : Defaults} {e : Element} (hd : e.isDefault = true)
      (hj : l.documents.judge l.environment e = .ok false) : Course l r (.scope outer e) true []
  | invalid {r : Resource} {outer : Defaults} {e : Element} {own : JournalEntry} {err : ProfileError}
      (hd : e.isDefault = true) (hj : l.documents.judge l.environment e = .error err)
      (ho : r.Blames e own) : Course l r (.scope outer e) true [own]
  | nothing {r : Resource} {defaults : Defaults} : Course l r (.contents defaults []) true []
  | text {r : Resource} {defaults : Defaults} {s : String} {rest : List (Content Element)}
      {whole : Bool} {journal : List JournalEntry}
      (h : Course l r (.contents defaults rest) whole journal) :
      Course l r (.contents defaults (.text s :: rest)) whole journal
  | next {r : Resource} {defaults : Defaults} {e : Element} {rest : List (Content Element)}
      {whole : Bool} {first back : List JournalEntry} (h : Course l r (.element defaults e) true first)
      (hr : Course l r (.contents defaults rest) whole back) :
      Course l r (.contents defaults (.element e :: rest)) whole (first ++ back)
  | last {r : Resource} {defaults : Defaults} {e : Element} {rest : List (Content Element)}
      {first : List JournalEntry} (h : Course l r (.element defaults e) false first) :
      Course l r (.contents defaults (.element e :: rest)) false first
  | custom {r : Resource} {defaults : Defaults} {e : Element} {own : JournalEntry}
      (hd : e.isDefault = false) (ho : r.Blames e own) :
      Course l r (.element defaults e) true [own]
  | other {r : Resource} {defaults : Defaults} {e : Element} (hd : e.isDefault = true)
      (hk : e.kind = .other) : Course l r (.element defaults e) true []
  | nested {r : Resource} {defaults : Defaults} {e : Element} {whole : Bool}
      {journal : List JournalEntry} (hd : e.isDefault = true) (hk : e.kind = .beans)
      (h : Course l r (.scope defaults e) whole journal) :
      Course l r (.element defaults e) whole journal
  | answered {r : Resource} {defaults : Defaults} {e : Element} {own : List JournalEntry}
      (hd : e.isDefault = true) (hk : e.kind = .aliasing ∨ e.kind = .bean) (ho : r.Answers e own) :
      Course l r (.element defaults e) true own
  | blank {r : Resource} {defaults : Defaults} {e : Element} {own : JournalEntry}
      (hd : e.isDefault = true) (hk : e.kind = .importing)
      (hb : Text.allBlank (e.attr "resource") = true) (ho : r.Blames e own) :
      Course l r (.element defaults e) true [own]
  | imported {r : Resource} {defaults : Defaults} {e : Element} {location : String}
      {resources : List Resource} {warning : Option Problem} {inside : List JournalEntry}
      (hd : e.isDefault = true) (hk : e.kind = .importing)
      (hb : Text.allBlank (e.attr "resource") = false)
      (hl : l.environment.resolveRequired (e.attr "resource") = .ok location)
      (hw : ∀ p ∈ warning, p.element = some e ∧ p.resource = some r.description)
      (h : Course l r .documents true inside) :
      Course l r (.element defaults e) true (inside ++
        (warning.toList.map (.problem .warning) ++
          [.event (.imported location resources (r.sourceOf e))]))
  | failed {r : Resource} {defaults : Defaults} {e : Element} {location : String} {whole : Bool}
      {resources : List Resource} {own : JournalEntry} {inside : List JournalEntry}
      (hd : e.isDefault = true) (hk : e.kind = .importing)
      (hb : Text.allBlank (e.attr "resource") = false)
      (hl : l.environment.resolveRequired (e.attr "resource") = .ok location) (ho : r.Blames e own)
      (h : Course l r .documents whole inside) :
      Course l r (.element defaults e) true
        (inside ++ [own, .event (.imported location resources (r.sourceOf e))])
  | raised {r : Resource} {defaults : Defaults} {e : Element} {whole : Bool}
      {inside : List JournalEntry} (hd : e.isDefault = true) (hk : e.kind = .importing)
      (h : Course l r .documents whole inside) : Course l r (.element defaults e) false inside
  | done {r : Resource} : Course l r .documents true []
  | load {r q : Resource} {root : Element} {whole : Bool} {inside rest : List JournalEntry}
      (hd : l.Document q root) (h : Course l q (.scope [] root) true inside)
      (hr : Course l r .documents whole rest) :
      Course l r .documents whole (.began q :: (inside ++ .ended q true :: rest))
  | refused {r : Resource} : Course l r .documents false []
  | unread {r q : Resource} : Course l r .documents false [.began q, .ended q false]
  | cut {r q : Resource} {root : Element} {inside : List JournalEntry} (hd : l.Document q root)
      (h : Course l q (.scope [] root) false inside) :
      Course l r .documents false (.began q :: (inside ++ [.ended q false]))

namespace Context

open Reading

variable {ctx : Context} (hr : ctx.reporter = .collecting) (hl : ctx.listening = true)
include hr hl

theorem endImport_ok_course (e : Element) (location : String) (count : Nat)
    (loaded : List Resource) :
    Tells (ctx.endImport e location (.ok count, loaded)) fun _ j => ∃ warning : Option Problem,
      (∀ p ∈ warning, p.element = some e ∧ p.resource = some ctx.resource.description) ∧
        j = warning.toList.map (.problem .warning) ++
          [.event (.imported location loaded (ctx.resource.sourceOf e))] := by
  have hconclude : Tells (ctx.concludeImport e (.of location) location (.ok count, loaded)) fun _ j =>
      ∃ warning : Option Problem,
        (∀ p ∈ warning, p.element = some e ∧ p.resource = some ctx.resource.description) ∧
          j = warning.toList.map (.problem .warning) := by
    refine (Tells.remark _).after fun _ => ?_
    split
    · refine (report_tells hr .warning _ (some e) none).mono ?_
      rintro _ _ rfl
      exact ⟨some _, by rintro _ ⟨⟩; exact ⟨rfl, rfl⟩, rfl⟩
    · exact .pure ⟨none, by rintro _ ⟨⟩, rfl⟩
  refine hconclude.bind fun _ first ⟨warning, hw, hfirst⟩ => ?_
  refine (event_tells hl _).mono fun _ j hj => ⟨warning, hw, ?_⟩
  rw [hfirst, hj]
  rfl

theorem endImport_error_course (e : Element) {location : String} {f : Failure}
    (hc : (LocationKind.of location).contains f = true) (loaded : List Resource) :
    Tells (ctx.endImport e location (.error f, loaded)) fun _ j => ∃ own,
      ctx.resource.Blames e own ∧
        j = [own, .event (.imported location loaded (ctx.resource.sourceOf e))] := by
  rw [endImport_contained hc]
  refine (error_tells hr _ e _).bind fun _ first ⟨own, hfirst, ho⟩ => ?_
  refine (event_tells hl _).mono fun _ j hj => ⟨own, ho, ?_⟩
  rw [hfirst, hj]
  rfl

end Context

namespace Loader

def Runs (l : Loader) (r : Resource) (part : Part) {α : Type} (act : Reading α) : Prop :=
  ∀ s : Session, ∃ journal, s.Entered journal (act s).2 ∧
    l.Course r part (act s).1.toBool (course journal)

inductive LoadTold (l : Loader) (q : Resource) : Except Failure Nat → List JournalEntry → Prop
  | ok {n : Nat} {root : Element} {inside : List JournalEntry} (hd : l.Document q root)
      (h : l.Course q (.scope [] root) true inside) :
      LoadTold l q (.ok n) (.began q :: (inside ++ [.ended q true]))
  | error {f : Failure} {journal : List JournalEntry} (h : ∀ r, l.Course r .documents false journal) :
      LoadTold l q (.error f) journal

def Tells (l : Loader) (importer : Importer) : Prop :=
  ∀ (q : Resource) (s : Session), ∃ journal, s.Entered journal (importer.loadResource q s).2 ∧
    l.LoadTold q (importer.loadResource q s).1 (course journal)

variable {l : Loader} {r : Resource} {part : Part}

theorem runs_of_tells {α : Type} {act : Reading α} {P : α → List JournalEntry → Prop}
    (ha : act.Tells P) (h : ∀ a j, P a j → l.Course r part true j) : l.Runs r part act := by
  intro s
  obtain ⟨a, t, journal, hact, hj, hP⟩ := ha s
  rw [hact]
  exact ⟨journal, hj, h a _ hP⟩

variable {depth : Nat}

theorem loads_told (hi : l.Tells (l.importer depth)) {loads : List (Resource × Except Failure Nat)}
    {s u : Session} (h : (l.importer depth).Loads s loads u) (r : Resource) :
    ∃ journal, s.Entered journal u ∧
      l.Course r .documents (loadFailure? loads).isNone (course journal) := by
  induction h with
  | none s => exact ⟨[], .refl s, .done⟩
  | @failed q f s t h =>
    obtain ⟨journal, hj, htold⟩ := hi q s
    rw [h] at hj htold
    cases htold with
    | error hcourse => exact ⟨journal, hj, hcourse r⟩
  | @next q n rest s t u h _ ih =>
    obtain ⟨first, hfirst, htold⟩ := hi q s
    rw [h] at hfirst htold
    obtain ⟨back, hback, hcourse⟩ := ih
    refine ⟨first ++ back, hfirst.trans hback, ?_⟩
    rw [course_append]
    generalize course first = told at htold
    cases htold with
    | ok hd hinside =>
      rw [List.cons_append, List.append_assoc]
      exact .load hd hinside hcourse

section

variable (hr : l.reporter = .collecting) (hl : l.listening = true)
include hr hl

theorem endImport_runs {loads : List (Resource × Except Failure Nat)} {e : Element}
    {location : String} {defaults : Defaults} {inside : List JournalEntry} {o : Except Failure Nat}
    (hd : e.isDefault = true) (hk : e.kind = .importing)
    (hb : Text.allBlank (e.attr "resource") = false)
    (hplace : l.environment.resolveRequired (e.attr "resource") = .ok location)
    (h : l.Course r .documents (loadFailure? loads).isNone inside)
    (ho : ∀ n, o = .ok n → loadFailure? loads = none) (s : Session) :
    ∃ own, s.Entered own
        ((l.context (l.importer depth) r).endImport e location (o, firsts (completed loads)) s).2 ∧
      l.Course r (.element defaults e)
        ((l.context (l.importer depth) r).endImport e location (o, firsts (completed loads))
          s).1.toBool (inside ++ course own) := by
  have hctx : (l.context (l.importer depth) r).reporter = .collecting := hr
  cases o with
  | ok n =>
    rw [ho n rfl] at h
    obtain ⟨_, t, own, ht, hown, warning, hw, hcourse⟩ :=
      Context.endImport_ok_course hctx hl e location n (firsts (completed loads)) s
    rw [ht]
    exact ⟨own, hown, hcourse ▸ .imported hd hk hb hplace hw h⟩
  | error f =>
    cases hc : (LocationKind.of location).contains f with
    | true =>
      obtain ⟨_, t, own, ht, hown, entry, hentry, hcourse⟩ :=
        Context.endImport_error_course hctx hl e hc (firsts (completed loads)) s
      rw [ht]
      exact ⟨own, hown, hcourse ▸ .failed hd hk hb hplace hentry h⟩
    | false =>
      rw [Context.endImport_escapes hc]
      refine ⟨[], .refl s, ?_⟩
      rw [show course [] = [] from rfl, List.append_nil]
      exact .raised hd hk h

theorem importElement_runs (hi : l.Tells (l.importer depth)) (defaults : Defaults) {e : Element}
    (hd : e.isDefault = true) (hk : e.kind = .importing) :
    l.Runs r (.element defaults e) ((l.context (l.importer depth) r).importElement e) := by
  intro s
  have hctx : (l.context (l.importer depth) r).reporter = .collecting := hr
  rcases (l.context (l.importer depth) r).importElement_cases e s with
    ⟨hb, hblank⟩ | ⟨hb, ⟨err, hplace, hthrow⟩ | ⟨location, o, loaded, t, hplace, hload, hend⟩⟩
  · rw [hblank]
    refine runs_of_tells (error_tells hctx _ e none) ?_ s
    rintro _ _ ⟨entry, rfl, ho⟩
    exact .blank hd hk hb ho
  · rw [hthrow]
    exact ⟨[], .refl s, .raised hd hk .done⟩
  · obtain ⟨loads, u, remarks, hloads, hremarks, rfl, hwhole⟩ := loadNamed_loads hload
    obtain ⟨inside, hinside, hcourse⟩ := loads_told hi hloads r
    have hfailure : ∀ n, o = .ok n → loadFailure? loads = none := by
      rintro n rfl
      have hnamed := hwhole.resolve_left nofun
      cases hn : r.named l.workspace location (.of location) with
      | error f =>
        rw [hn] at hnamed
        cases hnamed.2
      | ok rs =>
        rw [hn] at hnamed
        cases hnamed with
        | ok hf _ => exact hf
    obtain ⟨own, hown, htold⟩ := endImport_runs hr hl hd hk hb hplace hcourse hfailure t
    rw [hend]
    refine ⟨inside ++ (remarks.map JournalEntry.remark ++ own), hinside.trans (hremarks.trans hown), ?_⟩
    have hsilent : course (remarks.map JournalEntry.remark) = [] := by
      apply List.filter_eq_nil_iff.mpr
      intro entry hm
      obtain ⟨remark, -, rfl⟩ := List.mem_map.mp hm
      exact nofun
    rw [course_append, course_append, hsilent, List.nil_append]
    exact htold

omit hl in
theorem barred_runs {importer : Importer} (outer : Defaults) {e : Element} (hd : e.isDefault = true)
    (hj : l.documents.judge l.environment e ≠ .ok true) :
    l.Runs r (.scope outer e) (l.documents.readScope (l.context importer r) outer e) := by
  have hctx : (l.context importer r).reporter = .collecting := hr
  have henv : (l.context importer r).environment = l.environment := rfl
  cases h : l.documents.judge l.environment e with
  | error err =>
    rw [← henv] at h
    rw [DocumentReader.readScope_invalid outer hd h]
    refine runs_of_tells (error_tells hctx _ e _) ?_
    rintro _ _ ⟨own, rfl, ho⟩
    exact .invalid hd h ho
  | ok accepted =>
    cases accepted with
    | true => exact absurd h hj
    | false =>
      rw [← henv] at h
      rw [DocumentReader.readScope_rejected outer hd h]
      refine runs_of_tells (Reading.Tells.remark _) ?_
      rintro _ _ rfl
      exact .rejected hd h

omit hr hl in
theorem next_runs {defaults : Defaults} {e : Element} {rest : List (Content Element)}
    {act next : Reading Unit} (ha : l.Runs r (.element defaults e) act)
    (hn : l.Runs r (.contents defaults rest) next) :
    l.Runs r (.contents defaults (.element e :: rest)) (act >>= fun _ => next) := by
  intro s
  obtain ⟨first, hfirst, hcourse⟩ := ha s
  rcases hact : act s with ⟨f | ⟨⟩, t⟩
  · rw [hact] at hfirst hcourse
    rw [Reading.bind_error _ hact]
    exact ⟨first, hfirst, .last hcourse⟩
  · rw [hact] at hfirst hcourse
    rw [Reading.bind_ok _ hact]
    obtain ⟨back, hback, hcourse'⟩ := hn t
    refine ⟨first ++ back, hfirst.trans hback, ?_⟩
    rw [course_append]
    exact .next hcourse hcourse'

omit hr in
theorem accepted_runs {importer : Importer} {outer : Defaults} {e : Element}
    (hd : e.isDefault = true) (hj : l.documents.judge l.environment e = .ok true)
    (h : l.Runs r (.contents (outer.enter e) e.contents)
      (l.documents.readContents ⟨l.context importer r, outer.enter e⟩ e.contents)) :
    l.Runs r (.scope outer e) (l.documents.readScope (l.context importer r) outer e) := by
  intro s
  have hlistening : (l.context importer r).listening = true := hl
  let values := JournalEntry.event (.defaults (outer.enter e).resolve (r.sourceOf e))
  obtain ⟨_, t, fired, ht, hfired, hcourse⟩ := event_tells hlistening
    (.defaults (outer.enter e).resolve ((l.context importer r).source e)) s
  let opened : Session := { t with entries := .opened e :: t.entries }
  have henter : Reading.enter (.opened e) t = (.ok (), opened) := rfl
  have hadmits : l.documents.admits (l.context importer r) e = pure true :=
    DocumentReader.admits_accepted hd hj
  rw [DocumentReader.readScope_admitted hadmits, Reading.bind_ok _ ht,
    Reading.bind_ok _ henter, DocumentReader.readInside_default hd]
  obtain ⟨inside, hinside, htold⟩ := h { opened with usedNames := [] }
  rcases hread : l.documents.readContents ⟨l.context importer r, outer.enter e⟩ e.contents
    { opened with usedNames := [] } with ⟨o, u⟩
  rw [hread] at hinside htold
  let ended : Session := { u with usedNames := opened.usedNames }
  have hfresh : Reading.withFreshNames (l.documents.readContents
      ⟨l.context importer r, outer.enter e⟩ e.contents) opened = (o, ended) := by
    unfold Reading.withFreshNames
    rw [hread]
  have hopened : s.Entered (fired ++ [.opened e]) opened := hfired.trans rfl
  have hended : s.Entered (fired ++ [.opened e] ++ inside) ended := hopened.trans hinside
  have hfirst : course (fired ++ [.opened e] ++ inside) = values :: .opened e :: course inside := by
    rw [course_append, course_append, hcourse]
    rfl
  cases o with
  | error f =>
    rw [Reading.bind_error _ hfresh]
    refine ⟨_, hended, ?_⟩
    have haccepted : l.Course r (.scope outer e) false
        (values :: .opened e :: (course inside ++ [])) := .accepted hd hj htold
    rw [hfirst, ← List.append_nil (course inside)]
    exact haccepted
  | ok a =>
    rw [Reading.bind_ok _ hfresh]
    let closed : Session := { ended with entries := .closed e :: ended.entries }
    have hclosed : ended.Entered [.closed e] closed := rfl
    refine ⟨_, hended.trans hclosed, ?_⟩
    rw [course_append, hfirst]
    exact .accepted hd hj htold

variable (hh : l.documents.handlers = [])
include hh

theorem foreign_runs {importer : Importer} (outer : Defaults) {e : Element}
    (hd : e.isDefault = false) :
    l.Runs r (.scope outer e) (l.documents.readScope (l.context importer r) outer e) := by
  let ctx := l.context importer r
  have hctx : ctx.reporter = .collecting := hr
  have hlistening : ctx.listening = true := hl
  have hinside : Reading.Tells (l.documents.readInside ⟨ctx, outer.enter e⟩ e) fun _ j =>
      ∃ own, j = [own] ∧ r.Blames e own := by
    unfold DocumentReader.readInside
    rw [hd, hh]
    exact custom_tells hctx e
  rw [DocumentReader.readScope_admitted (DocumentReader.admits_foreign hd)]
  refine runs_of_tells (P := fun _ j => ∃ own, r.Blames e own ∧
    j = [.event (.defaults (outer.enter e).resolve (r.sourceOf e)), .opened e, own, .closed e]) ?_ ?_
  · refine (event_tells hlistening _).bind fun _ _ hfired => ?_
    refine (Reading.Tells.enter _).bind fun _ _ hopened => ?_
    refine hinside.withFreshNames.bind fun _ _ ⟨own, hown, ho⟩ => ?_
    refine (Reading.Tells.enter _).mono fun _ _ hclosed => ⟨own, ho, ?_⟩
    rw [hfired, hopened, hown, hclosed]
    rfl
  · rintro _ _ ⟨own, ho, rfl⟩
    exact .foreign hd ho

theorem readElement_runs (hi : l.Tells (l.importer depth)) (defaults : Defaults) (e : Element)
    (hscope : l.Runs r (.scope defaults e)
      (l.documents.readScope (l.context (l.importer depth) r) defaults e)) :
    l.Runs r (.element defaults e)
      (l.documents.readElement ⟨l.context (l.importer depth) r, defaults⟩ e) := by
  have hctx : (l.context (l.importer depth) r).reporter = .collecting := hr
  have hlistening : (l.context (l.importer depth) r).listening = true := hl
  unfold DocumentReader.readElement
  cases hd : e.isDefault with
  | false =>
    rw [hh]
    refine runs_of_tells (custom_tells hctx e) ?_
    rintro _ _ ⟨own, rfl, ho⟩
    exact .custom hd ho
  | true =>
    cases hk : e.kind with
    | importing => exact importElement_runs hr hl hi defaults hd hk
    | aliasing =>
      exact runs_of_tells (aliasElement_answers hctx hlistening hk) fun _ _ ho =>
        .answered hd (.inl hk) ho
    | bean =>
      exact runs_of_tells (beanElement_answers hctx hlistening hh hk) fun _ _ ho =>
        .answered hd (.inr hk) ho
    | beans =>
      intro s
      obtain ⟨journal, hj, hcourse⟩ := hscope s
      exact ⟨journal, hj, .nested hd hk hcourse⟩
    | other => exact fun s => ⟨[], .refl s, .other hd hk⟩

mutual

theorem readScope_runs (hi : l.Tells (l.importer depth)) (outer : Defaults) : (e : Element) →
    l.Runs r (.scope outer e) (l.documents.readScope (l.context (l.importer depth) r) outer e)
  | ⟨tag, uri, attributes, contents, line⟩ => by
    let e : Element := ⟨tag, uri, attributes, contents, line⟩
    have hcontents := readContents_runs hi (outer.enter e) contents
    cases hd : e.isDefault with
    | false => exact foreign_runs hr hl hh outer hd
    | true =>
      by_cases hj : l.documents.judge l.environment e = .ok true
      · exact accepted_runs hl hd hj hcontents
      · exact barred_runs hr outer hd hj

theorem readContents_runs (hi : l.Tells (l.importer depth)) (defaults : Defaults) :
    (contents : List (Content Element)) →
    l.Runs r (.contents defaults contents)
      (l.documents.readContents ⟨l.context (l.importer depth) r, defaults⟩ contents)
  | [] => by
    rw [DocumentReader.readContents]
    exact fun s => ⟨[], .refl s, .nothing⟩
  | .text x :: rest => by
    rw [DocumentReader.readContents]
    intro s
    obtain ⟨journal, hj, hcourse⟩ := readContents_runs hi defaults rest s
    exact ⟨journal, hj, .text hcourse⟩
  | .element e :: rest => by
    rw [DocumentReader.readContents_element]
    exact next_runs (readElement_runs hr hl hh hi defaults e (readScope_runs hi defaults e))
      (readContents_runs hi defaults rest)

end

theorem registerDocument_runs (hi : l.Tells (l.importer depth)) (root : Element) :
    l.Runs r (.scope [] root) (l.registerDocument (l.importer depth) root r) := by
  intro s
  obtain ⟨journal, hj, hcourse⟩ := readScope_runs (r := r) hr hl hh hi [] root s
  refine ⟨journal, ?_⟩
  have hget : (get : Reading Session) s = (.ok s, s) := rfl
  unfold registerDocument DocumentReader.read
  rw [Reading.bind_ok _ hget]
  rcases hread : l.documents.readScope (l.context (l.importer depth) r) [] root s with ⟨f | ⟨⟩, t⟩
  · rw [hread] at hj hcourse
    rw [Reading.bind_error _ hread]
    exact ⟨hj, hcourse⟩
  · rw [hread] at hj hcourse
    rw [Reading.bind_ok _ hread]
    exact ⟨hj, hcourse⟩

theorem loadResource_tells (hi : l.Tells (l.importer depth)) (q : Resource) (s : Session) :
    ∃ journal, s.Entered journal (l.loadResource (l.importer depth) q s).2 ∧
      l.LoadTold q (l.loadResource (l.importer depth) q s).1 (course journal) := by
  rw [loadResource_apply]
  split
  · exact ⟨[], .refl s, .error fun _ => .refused⟩
  split
  · exact ⟨[], .refl s, .error fun _ => .refused⟩
  · exact ⟨[], .refl s, .error fun _ => .refused⟩
  let begun : Session := { s with entries := .remark (.loading q.description) :: s.entries }
  have hbegun : s.Entered [.remark (.loading q.description)] begun := rfl
  obtain ⟨inside, hinside, htold⟩ : ∃ inside,
      (begun.beginning q).Entered inside (l.readResource (l.importer depth) q (begun.beginning q)).2 ∧
        l.LoadTold q (l.readResource (l.importer depth) q (begun.beginning q)).1
          (.began q :: (course inside ++
            [.ended q (l.readResource (l.importer depth) q (begun.beginning q)).1.toBool])) := by
    unfold readResource
    cases hread : q.read l.workspace with
    | error f => exact ⟨[], .refl _, .error fun _ => .unread⟩
    | ok data =>
      dsimp only
      cases hparse : l.parse data with
      | error line => exact ⟨[], .refl _, .error fun _ => .unread⟩
      | ok root =>
        have hdoc : l.Document q root := ⟨data, hread, hparse⟩
        obtain ⟨inside, hinside, hcourse⟩ :=
          registerDocument_runs (r := q) hr hl hh hi root (begun.beginning q)
        refine ⟨inside, hinside, ?_⟩
        dsimp only
        generalize (l.registerDocument (l.importer depth) root q (begun.beginning q)).1 = o at hcourse
        cases o with
        | error f => exact .error fun _ => .cut hdoc hcourse
        | ok n => exact .ok hdoc hcourse
  refine ⟨_, hbegun.trans hinside.load, ?_⟩
  change l.LoadTold q _ (course (.began q :: (inside ++ [.ended q _])))
  rw [course_cons rfl, course_append]
  exact htold

end

theorem importer_tells (hr : l.reporter = .collecting) (hl : l.listening = true)
    (hh : l.documents.handlers = []) (depth : Nat) : l.Tells (l.importer depth) := by
  induction depth with
  | zero => exact fun q s => ⟨[], .refl s, .error fun _ => .refused⟩
  | succ depth ih => exact loadResource_tells hr hl hh ih

end Loader

end BeanCatalog
