import BeanCatalog.Proofs.Loading.Replay
import BeanCatalog.Proofs.Loading.Spelling

namespace BeanCatalog

/-- The hook calls of a journal: the scopes that are opened and closed, and which of these it is. -/
def hookCalls (journal : List JournalEntry) : List (Bool × Element) :=
  journal.filterMap fun
    | .opened scope => some (true, scope)
    | .closed scope => some (false, scope)
    | _ => none

def problemTexts (journal : List JournalEntry) : List (Severity × String) :=
  journal.filterMap fun
    | .problem severity p => some (severity, p.text)
    | _ => none

theorem filterMap_of_plain {β : Type} {f : JournalEntry → Option β} {journal journal' : List JournalEntry}
    (hf : ∀ entry, f entry.plain = f entry)
    (h : journal.map JournalEntry.plain = journal'.map JournalEntry.plain) :
    journal.filterMap f = journal'.filterMap f := by
  have hplain (journal : List JournalEntry) :
      (journal.map JournalEntry.plain).filterMap f = journal.filterMap f := by
    rw [List.filterMap_map]
    exact List.filterMap_congr fun entry _ => hf entry
  rw [← hplain journal, h, hplain journal']

namespace Context

variable (ctx : Context) (e : Element)

theorem report_plain (severity : Severity) (fault : Fault) {cause cause' : Option Failure}
    (h : cause.map Failure.plain = cause'.map Failure.plain) :
    Reading.UpToSpelling (ctx.report severity fault (some e) cause)
      (ctx.report severity fault (some e.plain) cause') := by
  refine .take ctx.reporter severity ?_
  rw [ProblemOf.plain, ProblemOf.plain, ProblemOf.mk.injEq]
  exact ⟨rfl, congrArg some e.plain_plain.symm, h, rfl⟩

theorem error_plain (fault : Fault) (cause : Option Failure) :
    Reading.UpToSpelling (ctx.error fault e cause) (ctx.error fault e.plain cause) :=
  ctx.report_plain e .error fault rfl

theorem source_plain : ctx.source e.plain = ctx.source e := by
  rw [source, source, e.plain_line]

theorem fire_plain (event : Event) : Reading.UpToSpelling (ctx.fire event) (ctx.fire event) := by
  unfold fire
  split
  · exact .of_blind (.enter _)
  · exact .pure ()

theorem enroll_plain (enrolment : Enrolment) :
    Reading.UpToSpelling (ctx.enroll e enrolment) (ctx.enroll e.plain enrolment) := by
  refine .bind (.of_blind (.register _)) fun refusal => ?_
  cases refusal with
  | some refusal => exact ctx.error_plain e _ _
  | none =>
    rw [source_plain]
    exact ctx.fire_plain _

theorem aliasNamed_plain : Reading.UpToSpelling (ctx.aliasNamed e) (ctx.aliasNamed e.plain) := by
  have hregister : Reading.UpToSpelling (ctx.registerAlias e) (ctx.registerAlias e.plain) := by
    have henroll := ctx.enroll_plain e (.naming (e.attr "name") (e.attr "alias"))
    unfold registerAlias
    rw [e.plain_attr, e.plain_attr]
    exact henroll
  unfold aliasNamed
  rw [e.plain_attr, e.plain_attr]
  have hnamed := Reading.UpToSpelling.ite
    (!Text.allBlank (e.attr "name") && !Text.allBlank (e.attr "alias")) hregister (.pure ())
  exact .ite _ (.bind (ctx.error_plain e .emptyAlias none) fun _ => hnamed) hnamed

theorem aliasElement_plain :
    Reading.UpToSpelling (ctx.aliasElement e) (ctx.aliasElement e.plain) := by
  rw [aliasElement_eq, aliasElement_eq, e.plain_attr]
  have hnamed := ctx.aliasNamed_plain e
  exact .ite _ (.bind (ctx.error_plain e .emptyName none) fun _ => hnamed) hnamed

theorem endImport_plain (location : String) {outcome outcome' : LoadOutcome}
    (h : outcome.plain = outcome'.plain) :
    Reading.UpToSpelling (ctx.endImport e location outcome)
      (ctx.endImport e.plain location outcome') := by
  obtain ⟨o, loaded⟩ := outcome
  obtain ⟨o', loaded'⟩ := outcome'
  obtain ⟨ho, rfl⟩ := Prod.mk.inj h
  have hfire : Reading.UpToSpelling (ctx.fire (.imported location loaded (ctx.source e)))
      (ctx.fire (.imported location loaded (ctx.source e.plain))) := by
    rw [source_plain]
    exact ctx.fire_plain _
  rcases mapError_plain ho with ⟨count, rfl, rfl⟩ | ⟨f, f', rfl, rfl, hf⟩
  · refine .bind (.bind (.of_blind (.enter _)) fun _ => ?_) fun _ => hfire
    exact .ite loaded.isEmpty (ctx.report_plain e _ _ rfl) (.pure ())
  · -- What becomes of a failure to load is decided by its kind, and that is no matter of spelling.
    have hkind : f'.kind = f.kind := by rw [← f'.plain_kind, ← hf, f.plain_kind]
    have hcontains : (LocationKind.of location).contains f' = (LocationKind.of location).contains f := by
      unfold LocationKind.contains
      rw [hkind]
    have hfault : (LocationKind.of location).fault location f' =
        (LocationKind.of location).fault location f := by
      unfold LocationKind.fault
      rw [hkind]
    cases hc : (LocationKind.of location).contains f with
    | true =>
      rw [endImport_contained hc, endImport_contained (hcontains.trans hc), hfault]
      exact .bind (ctx.report_plain e _ _ (congrArg some hf)) fun _ => hfire
    | false =>
      rw [endImport_escapes hc, endImport_escapes (hcontains.trans hc)]
      exact .throw hf

def BlindToSpelling (ctx : Context) : Prop :=
  ∀ importer, ctx.importer = some importer → importer.BlindToSpelling

variable {ctx}

theorem loadLocation_spelling (hi : ctx.BlindToSpelling) (location : String) :
    UpToSpelling LoadOutcome.plain (ctx.loadLocation location) (ctx.loadLocation location) := by
  unfold loadLocation requireImporter
  cases h : ctx.importer with
  | none => exact .pure rfl
  | some importer => exact (hi importer h).location location []

theorem loadResource_spelling (hi : ctx.BlindToSpelling) (r : Resource) :
    UpToSpelling LoadOutcome.plain (ctx.loadResource r) (ctx.loadResource r) := by
  unfold loadResource requireImporter
  cases h : ctx.importer with
  | none => exact .pure rfl
  | some importer =>
    refine .bind ((hi importer h).resource r) fun o o' ho => ?_
    rcases mapError_plain ho with ⟨count, rfl, rfl⟩ | ⟨f, f', rfl, rfl, hf⟩
    · exact .pure rfl
    · exact .pure (congrArg (fun f => ((.error f, []) : LoadOutcome)) hf)

theorem loadNamed_spelling (hi : ctx.BlindToSpelling) (location : String) (kind : LocationKind) :
    UpToSpelling LoadOutcome.plain (ctx.loadNamed location kind) (ctx.loadNamed location kind) := by
  cases kind with
  | absolute => exact loadLocation_spelling hi location
  | relative =>
    unfold loadNamed loadBeside
    dsimp only
    split
    · exact .pure rfl
    · exact loadResource_spelling hi _
    · exact loadLocation_spelling hi _

theorem importElement_plain (hi : ctx.BlindToSpelling) (e : Element) :
    Reading.UpToSpelling (ctx.importElement e) (ctx.importElement e.plain) := by
  have hresource := e.plain_attr "resource"
  by_cases hb : Text.allBlank (e.attr "resource") = true
  · rw [importElement_blank ctx hb, importElement_blank ctx (hresource ▸ hb)]
    exact ctx.error_plain e _ _
  rw [Bool.not_eq_true] at hb
  have hb' : Text.allBlank (e.plain.attr "resource") = false := hresource ▸ hb
  cases hl : ctx.environment.resolveRequired (e.attr "resource") with
  | error err =>
    rw [importElement_placeholder ctx hb hl, importElement_placeholder ctx hb' (hresource ▸ hl)]
    exact .throw rfl
  | ok location =>
    rw [importElement_load ctx hb hl, importElement_load ctx hb' (hresource ▸ hl)]
    exact .lift (loadNamed_spelling hi location _) fun _ _ h => ctx.endImport_plain e location h

end Context

namespace Scope

variable (scope : Scope) (e : Element)

theorem namesOf_plain : namesOf e.plain = namesOf e := by
  unfold namesOf
  rw [e.plain_attr, e.plain_attr?]

theorem argument_plain : argument e.plain = argument e := by
  cases e
  rfl

theorem property_plain (kept : List PropertyValue) : property kept e.plain = property kept e := by
  cases e
  rfl

theorem attributesOf_plain (className : Option String) (name : String) :
    scope.attributesOf e.plain className name = scope.attributesOf e className name := by
  cases e
  rfl

theorem keep_plain (parsed : Except Fault PropertyValue) (store : PropertyValue → Definition)
    (d : Definition) :
    Reading.UpToSpelling (scope.keep e parsed store d) (scope.keep e.plain parsed store d) := by
  cases parsed with
  | ok v => exact .pure _
  | error fault => exact .bind (scope.context.error_plain e fault none) fun _ => .pure d

theorem addChild_plain (d : Definition) :
    Reading.UpToSpelling (scope.addChild d e) (scope.addChild d e.plain) := by
  unfold addChild
  rw [e.plain_isDefault, e.plain_tag, e.plain_text, property_plain, argument_plain]
  split
  · exact .pure _
  split
  · exact .pure _
  split
  · exact scope.keep_plain e _ _ _
  split
  · exact scope.keep_plain e _ _ _
  · exact .pure _

theorem takeNames_plain (names : List String) :
    Reading.UpToSpelling (scope.takeNames names e) (scope.takeNames names e.plain) := by
  refine .session fun s s' hs => ?_
  obtain ⟨-, -, -, hu⟩ := Session.plain_eq_iff.mp hs
  dsimp only
  rw [hu]
  cases (names.filter (· ≠ "")).find? (s'.usedNames.contains ·) with
  | some name => exact .bind (scope.context.error_plain e _ _) fun _ => .pure false
  | none =>
    refine .bind (.of_blind ?_) fun _ => .pure true
    exact (scope.context.steps_blind none).names _

theorem parseNamed_plain (name : String) (aliases : List String) :
    Reading.UpToSpelling (scope.parseNamed e name aliases)
      (scope.parseNamed e.plain name aliases) := by
  unfold parseNamed parseDefinition
  rw [e.plain_attr?, attributesOf_plain, e.plain_children]
  simp only [List.foldlM_map]
  refine .bind (scope.takeNames_plain e _) fun taken => .ite (!taken) (.pure none) ?_
  cases scope.attributesOf e (e.attr? "class") name with
  | error fault => exact .bind (scope.context.error_plain e _ _) fun _ => .pure none
  | ok d =>
    refine .bind (.foldlM (fun d child => scope.addChild_plain child d) _ _) fun d => ?_
    refine .session fun s s' hs => ?_
    rw [(Session.plain_eq_iff.mp hs).1]
    exact .pure _

theorem parseBean_plain :
    Reading.UpToSpelling (scope.parseBean e) (scope.parseBean e.plain) := by
  have hnames : Reading.Blind (namesOf e) := (scope.context.steps_blind none).namesOf e
  rw [parseBean_eq, parseBean_eq, namesOf_plain, e.plain_attr?]
  refine .bind (.of_blind hnames) fun (name, aliases) => ?_
  dsimp only
  split
  · exact .bind (scope.context.error_plain e _ _) fun _ => .pure none
  · exact scope.parseNamed_plain e _ _

theorem decorateBy_plain (uri : String) (name : Option String) (holder : Holder) :
    Reading.UpToSpelling (scope.decorateBy [] uri e name holder)
      (scope.decorateBy [] uri e.plain name holder) := by
  unfold decorateBy
  split
  · exact .pure holder
  · exact .bind (.of_blind (.enter _)) fun _ => .pure holder

theorem decorate_plain (holder : Holder) :
    Reading.UpToSpelling (scope.decorate [] e holder) (scope.decorate [] e.plain holder) := by
  unfold decorate
  rw [e.plain_attributes, e.plain_children]
  simp only [List.foldlM_map, Element.plain_isDefault]
  refine .bind (.foldlM (fun holder name => ?_) _ _) fun holder =>
    .foldlM (fun holder child => ?_) _ _
  · cases foreignUri? name with
    | some uri => exact scope.decorateBy_plain e _ _ _
    | none => exact .pure holder
  · split
    case isTrue => exact .pure holder
    case isFalse hd =>
      rw [Element.plain_uri (Bool.eq_false_iff.mpr hd)]
      exact scope.decorateBy_plain child _ _ _

theorem parseCustom_plain (hd : e.isDefault = false) :
    Reading.UpToSpelling (scope.parseCustom [] e) (scope.parseCustom [] e.plain) := by
  rw [parseCustom_nil, parseCustom_nil, Element.plain_uri hd]
  exact .bind (scope.context.error_plain e _ _) fun _ => .pure none

end Scope

theorem Defaults.enter_plain (outer : Defaults) (e : Element) : outer.enter e.plain = outer.enter e := by
  cases e
  rfl

namespace DocumentReader

variable {reader : DocumentReader} {ctx : Context}

variable (reader) in
theorem judge_plain (environment : Environment) (e : Element) :
    reader.judge environment e.plain = reader.judge environment e := by
  cases e
  rfl

variable (reader ctx) in
theorem admits_plain (e : Element) :
    Reading.UpToSpelling (reader.admits ctx e) (reader.admits ctx e.plain) := by
  unfold admits
  rw [e.plain_isDefault, profilesAccepted_eq, profilesAccepted_eq, judge_plain, e.plain_attr]
  refine .ite e.isDefault ?_ (.pure true)
  split
  · exact .bind (ctx.error_plain e _ _) fun _ => .pure false
  · exact .pure true
  · exact .bind (.of_blind (.enter _)) fun _ => .pure false

theorem beanElement_plain (hh : reader.handlers = []) (scope : Scope) (e : Element) :
    Reading.UpToSpelling (reader.beanElement scope e) (reader.beanElement scope e.plain) := by
  rw [beanElement_eq, beanElement_eq]
  refine .bind (scope.parseBean_plain e) fun parsed => ?_
  cases parsed with
  | none => exact .pure ()
  | some holder =>
    rw [keepBean_some, keepBean_some, hh]
    exact .bind (scope.decorate_plain e holder) fun holder =>
      scope.context.enroll_plain e (.bean holder)

theorem readElement_plain (hh : reader.handlers = []) (hi : ctx.BlindToSpelling)
    (defaults : Defaults) (e : Element)
    (hs : Reading.UpToSpelling (reader.readScope ctx defaults e)
      (reader.readScope ctx defaults e.plain)) :
    Reading.UpToSpelling (reader.readElement ⟨ctx, defaults⟩ e)
      (reader.readElement ⟨ctx, defaults⟩ e.plain) := by
  unfold readElement
  rw [e.plain_isDefault, e.plain_kind, hh]
  split
  case isTrue =>
    cases e.kind with
    | importing => exact Context.importElement_plain hi e
    | aliasing => exact ctx.aliasElement_plain e
    | bean => exact beanElement_plain hh _ e
    | beans => exact hs
    | other => exact .pure ()
  case isFalse hd =>
    exact .bind (Scope.parseCustom_plain _ e (Bool.eq_false_iff.mpr hd)) fun _ => .pure ()

theorem readScope_inside {outer : Defaults} {e : Element}
    (h : Reading.UpToSpelling (reader.readInside ⟨ctx, outer.enter e⟩ e)
      (reader.readInside ⟨ctx, outer.enter e⟩ e.plain)) :
    Reading.UpToSpelling (reader.readScope ctx outer e) (reader.readScope ctx outer e.plain) := by
  rw [readScope_eq, readScope_eq, Defaults.enter_plain, ctx.source_plain]
  refine .bind (reader.admits_plain ctx e) fun accepted => .ite accepted ?_ (.pure ())
  refine .bind (ctx.fire_plain _) fun _ => ?_
  refine .bind (.enter (congrArg JournalEntry.opened e.plain_plain.symm)) fun _ => ?_
  refine .bind (.withFreshNames h) fun _ => ?_
  exact .enter (congrArg JournalEntry.closed e.plain_plain.symm)

mutual

theorem readScope_plain (hh : reader.handlers = []) (hi : ctx.BlindToSpelling) (outer : Defaults) :
    (e : Element) →
    Reading.UpToSpelling (reader.readScope ctx outer e) (reader.readScope ctx outer e.plain)
  | ⟨tag, uri, attributes, contents, line⟩ => by
    have hcontents := readContents_plain hh hi
      (outer.enter ⟨tag, uri, attributes, contents, line⟩) contents
    refine readScope_inside ?_
    unfold readInside
    rw [Element.plain_isDefault]
    split
    case isTrue => exact hcontents
    case isFalse hd =>
      rw [hh]
      exact .bind (Scope.parseCustom_plain _ _ (Bool.eq_false_iff.mpr hd)) fun _ => .pure ()

theorem readContents_plain (hh : reader.handlers = []) (hi : ctx.BlindToSpelling)
    (defaults : Defaults) : (contents : List (Content Element)) →
    Reading.UpToSpelling (reader.readContents ⟨ctx, defaults⟩ contents)
      (reader.readContents ⟨ctx, defaults⟩ (Element.plainContents contents))
  | [] => by
    rw [Element.plainContents, readContents]
    exact .pure ()
  | .text s :: rest => by
    rw [Element.plainContents, readContents, readContents]
    exact readContents_plain hh hi defaults rest
  | .element e :: rest => by
    have hscope := readScope_plain hh hi defaults e
    rw [Element.plainContents, readContents_element, readContents_element]
    exact .bind (readElement_plain hh hi defaults e hscope) fun _ =>
      readContents_plain hh hi defaults rest

end

/-- Documents that are the same up to how they spell the default namespace read alike, if their imports
do not tell the spellings apart either. They come to the same, and leave the same registry and the same
events, hook calls and problem texts, in the same order. -/
theorem read_respelt (hh : reader.handlers = []) (hi : ctx.BlindToSpelling) {root root' : Element}
    (h : root.plain = root'.plain) (s : Session) :
    ∃ (o o' : Except Failure Unit) (t t' : Session),
      reader.read ctx root s = (o, t) ∧ reader.read ctx root' s = (o', t') ∧
        o.mapError (fun f => (f.kind, f.message)) = o'.mapError (fun f => (f.kind, f.message)) ∧
        t.registry = t'.registry ∧ eventsOf t.journal = eventsOf t'.journal ∧
        (hookCalls t.journal).map (Prod.map id Element.plain) =
          (hookCalls t'.journal).map (Prod.map id Element.plain) ∧
        problemTexts t.journal = problemTexts t'.journal ∧
        t.journal.map JournalEntry.plain = t'.journal.map JournalEntry.plain := by
  have hplain : Reading.UpToSpelling (reader.read ctx root) (reader.read ctx root.plain) :=
    readScope_plain hh hi [] root
  have hplain' : Reading.UpToSpelling (reader.read ctx root') (reader.read ctx root.plain) :=
    h ▸ readScope_plain hh hi [] root'
  obtain ⟨ho, ht⟩ := hplain.trans hplain'.symm s s rfl
  obtain ⟨hr, hentries, -, -⟩ := Session.plain_eq_iff.mp ht
  have hjournal : (reader.read ctx root s).2.journal.map JournalEntry.plain =
      (reader.read ctx root' s).2.journal.map JournalEntry.plain := by
    unfold Session.journal
    rw [List.map_reverse, List.map_reverse]
    exact congrArg List.reverse hentries
  refine ⟨_, _, _, _, rfl, rfl, mapError_kind_message ho, hr, ?_, ?_, ?_, hjournal⟩
  · exact filterMap_of_plain (fun entry => by cases entry <;> rfl) hjournal
  · unfold hookCalls
    rw [List.map_filterMap, List.map_filterMap]
    refine filterMap_of_plain (fun entry => ?_) hjournal
    cases entry with
    | opened scope => exact congrArg (fun e => some (true, e)) scope.plain_plain
    | closed scope => exact congrArg (fun e => some (false, e)) scope.plain_plain
    | _ => rfl
  · refine filterMap_of_plain (fun entry => ?_) hjournal
    cases entry with
    | problem severity p => exact congrArg (fun text => some (severity, text)) p.plain_text
    | _ => rfl

end DocumentReader

theorem Loader.context_blindToSpelling {l : Loader} (hh : l.documents.handlers = []) (depth : Nat)
    (r : Resource) : (l.context (l.importer depth) r).BlindToSpelling := by
  have hblind : (l.importer depth).Blind := by
    refine Loader.importer_blind (fun uri handler h => ?_) depth
    rw [hh] at h
    cases h
  rintro importer ⟨⟩
  exact hblind.toSpelling

def spelledRoot (first second third : Option String) : Element :=
  ⟨"beans", first, [],
    [.element ⟨"bean", second, [("id", "a"), ("class", "A")],
        [.element ⟨"property", third, [("name", "p"), ("value", "v")], [], some 3⟩], some 2⟩,
      .element ⟨"alias", third, [("name", "a"), ("alias", "b")], [], some 4⟩,
      .element ⟨"beans", second, [],
        [.element ⟨"import", first, [("resource", "file:/c.xml")], [], some 6⟩], some 5⟩,
      .element ⟨"task", some "urn:x", [], [.element ⟨"bean", third, [], [], some 8⟩], some 7⟩], some 1⟩

def spelledContext : Context := pairLoader.context (pairLoader.importer 1) (.bytes [] none)

def spelledRun (root : Element) : Except Failure Unit × Session :=
  pairLoader.documents.read spelledContext root {}

theorem spelledRoot_read :
    pairLoader.documents.handlers = [] ∧ spelledContext.BlindToSpelling ∧
      (spelledRoot none none none).plain =
        (spelledRoot (some "") (some defaultNamespace) none).plain ∧
      (spelledRun (spelledRoot none none none)).2.registry.aliases = [("b", "a")] ∧
      (spelledRun (spelledRoot (some "") (some defaultNamespace) none)).2.registry.aliases =
        [("b", "a")] ∧
      (problemTexts (spelledRun (spelledRoot none none none)).2.journal).length = 2 ∧
      (problemTexts
        (spelledRun (spelledRoot (some "") (some defaultNamespace) none)).2.journal).length = 2 := by
  have hh : pairLoader.documents.handlers = [] := rfl
  have hi : spelledContext.BlindToSpelling := Loader.context_blindToSpelling rfl 1 _
  have hplain : (spelledRoot none none none).plain =
      (spelledRoot (some "") (some defaultNamespace) none).plain := rfl
  obtain ⟨haliases, hproblems⟩ :
      (spelledRun (spelledRoot none none none)).2.registry.aliases = [("b", "a")] ∧
        (problemTexts (spelledRun (spelledRoot none none none)).2.journal).length = 2 := by
    decide +kernel
  obtain ⟨o, o', t, t', hrun, hrun', -, hregistry, -, -, htexts, -⟩ :=
    DocumentReader.read_respelt hh hi hplain {}
  unfold spelledRun at haliases hproblems ⊢
  rw [hrun] at haliases hproblems ⊢
  rw [hrun']
  refine ⟨hh, hi, hplain, haliases, ?_, hproblems, ?_⟩
  · rw [← hregistry]
    exact haliases
  · rw [← htexts]
    exact hproblems

end BeanCatalog
