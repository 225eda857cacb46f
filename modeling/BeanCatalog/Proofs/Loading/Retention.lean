import BeanCatalog.Proofs.Loading.Inheritance
import BeanCatalog.Proofs.Loading.Rejections
import BeanCatalog.Proofs.Loading.Tabulation

/-!
Whether the definitions that a scope tells of are all in the registry at its end. The names that beans
give themselves are kept apart within a scope; a generated name is checked against the registry when it
is generated, and against nothing afterwards.
-/

namespace BeanCatalog

/-- What has been told of between two sessions: some beans, each under its own name if it has one, and
no two of them under one name that they gave themselves. -/
structure Session.Tells (s : Session) (elements : List Element) (beans : List (Element × Holder))
    (t : Session) : Prop where
  told : ∃ journal, s.Entered journal t ∧ componentsIn journal = beans.map Prod.snd
  among : (beans.map Prod.fst).Sublist elements
  named : ∀ b ∈ beans, b.1.givenNames ≠ [] → b.2.name = b.1.givenName
  apart : beans.Pairwise fun x y => x.1.givenNames ≠ [] → y.1.givenNames ≠ [] → x.2.name ≠ y.2.name

structure Session.Gathers (s : Session) (elements : List Element) (beans : List (Element × Holder))
    (t : Session) : Prop extends s.Tells elements beans t where
  used : s.usedNames ⊆ t.usedNames
  taken : ∀ b ∈ beans, b.1.givenNames ≠ [] → b.2.name ∉ s.usedNames ∧ b.2.name ∈ t.usedNames

namespace Session

variable {s t u : Session} {elements more : List Element} {beans others : List (Element × Holder)}

theorem Tells.empty (h : s.Tells [] beans t) : beans = [] := by
  have hnil := List.sublist_nil.mp h.among
  exact List.map_eq_nil_iff.mp hnil

theorem Tells.between {v : Session} (hst : s.Tells [] [] t) (htu : t.Tells elements beans u)
    (huv : u.Tells [] [] v) : s.Tells elements beans v := by
  refine { htu with told := ?_ }
  obtain ⟨first, hfirst, hnone⟩ := hst.told
  obtain ⟨journal, hj, hbeans⟩ := htu.told
  obtain ⟨rest, hrest, hnone'⟩ := huv.told
  refine ⟨first ++ journal ++ rest, (hfirst.trans hj).trans hrest, ?_⟩
  rw [componentsIn_append, componentsIn_append, hnone, hbeans, hnone']
  exact List.append_nil _

theorem Gathers.silent {journal : List JournalEntry} (elements : List Element)
    (hj : s.Entered journal t) (hn : componentsIn journal = []) (hu : s.usedNames ⊆ t.usedNames) :
    s.Gathers elements [] t where
  told := ⟨journal, hj, hn⟩
  among := List.nil_sublist _
  named _ hm := absurd hm List.not_mem_nil
  apart := .nil
  used := hu
  taken _ hm := absurd hm List.not_mem_nil

theorem Gathers.one {e : Element} {holder : Holder} {journal : List JournalEntry}
    (h : s.Gathers [] [] t) (hj : t.Entered journal u) (hc : componentsIn journal = [holder])
    (hu : u.usedNames = t.usedNames)
    (hn : e.givenNames ≠ [] →
      holder.name = e.givenName ∧ holder.name ∉ s.usedNames ∧ holder.name ∈ t.usedNames) :
    s.Gathers [e] [(e, holder)] u where
  told := by
    obtain ⟨first, hfirst, hnone⟩ := h.told
    refine ⟨first ++ journal, hfirst.trans hj, ?_⟩
    rw [componentsIn_append, hnone, hc]
    rfl
  among := List.Sublist.refl _
  named := List.forall_mem_singleton.mpr fun hg => (hn hg).1
  apart := List.pairwise_singleton _ _
  used := hu ▸ h.used
  taken := List.forall_mem_singleton.mpr fun hg => ⟨(hn hg).2.1, hu ▸ (hn hg).2.2⟩

theorem Gathers.refl (s : Session) : s.Gathers [] [] s :=
  .silent [] (.refl s) rfl (List.Subset.refl _)

theorem Gathers.mono (h : s.Gathers elements beans t) (hs : elements.Sublist more) :
    s.Gathers more beans t :=
  { h with among := h.among.trans hs }

theorem Gathers.trans (hst : s.Gathers elements beans t) (htu : t.Gathers more others u) :
    s.Gathers (elements ++ more) (beans ++ others) u where
  told := by
    obtain ⟨first, hfirst, hbeans⟩ := hst.told
    obtain ⟨rest, hrest, hothers⟩ := htu.told
    refine ⟨first ++ rest, hfirst.trans hrest, ?_⟩
    rw [componentsIn_append, hbeans, hothers, List.map_append]
  among := by
    rw [List.map_append]
    exact hst.among.append htu.among
  named b hb := (List.mem_append.mp hb).elim (hst.named b) (htu.named b)
  apart := by
    refine List.pairwise_append.mpr ⟨hst.apart, htu.apart, fun x hx y hy hgx hgy he => ?_⟩
    have htaken := (hst.taken x hx hgx).2
    exact (htu.taken y hy hgy).1 (he ▸ htaken)
  used := List.Subset.trans hst.used htu.used
  taken b hb hg := by
    rcases List.mem_append.mp hb with hb | hb
    · obtain ⟨hfresh, htaken⟩ := hst.taken b hb hg
      exact ⟨hfresh, htu.used htaken⟩
    · obtain ⟨hfresh, htaken⟩ := htu.taken b hb hg
      exact ⟨fun hm => hfresh (hst.used hm), htaken⟩

end Session

def Reading.Gathers {α : Type} (elements : List Element) (act : Reading α) : Prop :=
  ∀ s : Session, ∃ beans, s.Gathers elements beans (act s).2

namespace Reading.Gathers

variable {α β : Type} {elements more : List Element} {s t : Session}

theorem idle {act : Reading α} (h : Gathers [] act) (s : Session) : s.Gathers [] [] (act s).2 := by
  obtain ⟨beans, hbeans⟩ := h s
  exact hbeans.empty ▸ hbeans

theorem same {act : Reading α} (h : ∀ s : Session, (act s).2 = s) : Gathers elements act := fun s =>
  ⟨[], (h s).symm ▸ (Session.Gathers.refl s).mono (List.nil_sublist _)⟩

theorem bind {act : Reading α} {next : α → Reading β} (ha : Gathers elements act)
    (hn : ∀ a, Gathers more (next a)) : Gathers (elements ++ more) (act >>= next) := by
  intro s
  obtain ⟨beans, hbeans⟩ := ha s
  rcases h : act s with ⟨f | a, t⟩
  · rw [bind_error next h]
    rw [h] at hbeans
    exact ⟨beans, hbeans.mono (List.sublist_append_left _ _)⟩
  · rw [bind_ok next h]
    rw [h] at hbeans
    obtain ⟨others, hothers⟩ := hn a t
    exact ⟨beans ++ others, hbeans.trans hothers⟩

theorem after {act : Reading α} {next : α → Reading β} (ha : Gathers [] act)
    (hn : ∀ a, Gathers elements (next a)) : Gathers elements (act >>= next) := ha.bind hn

theorem foldlM {step : β → α → Reading β} (h : ∀ b a, Gathers [] (step b a)) (l : List α) (b : β) :
    Gathers [] (l.foldlM step b) := by
  induction l generalizing b with
  | nil => exact same fun _ => rfl
  | cons a l ih =>
    rw [List.foldlM_cons]
    exact after (h b a) ih

theorem ite (b : Bool) {act other : Reading α} (ha : Gathers elements act)
    (ho : Gathers elements other) : Gathers elements (if b then act else other) := by
  cases b with
  | true => exact ha
  | false => exact ho

theorem enter {entry : JournalEntry} (h : componentsIn [entry] = []) : Gathers [] (enter entry) :=
  fun _ => ⟨[], .silent [] (.one rfl) h (List.Subset.refl _)⟩

theorem take (reporter : Reporter) (severity : Severity) (p : Problem) :
    Gathers [] (reporter.take severity p) := by
  refine after (enter rfl) fun _ => ?_
  cases reporter <;> cases severity <;> first | exact enter rfl | exact same fun _ => rfl

theorem parses (ctx : Context) (importer : Option Importer) :
    ParseRelation ctx (ctx.via importer) fun _ act _ => Gathers [] act where
  alike := ⟨ctx.reporter, importer, rfl⟩
  done _ := same fun _ => rfl
  bind := bind
  session hn _ _ s := hn s s
  names _ s := ⟨[], .silent [] (.refl s) rfl (List.subset_append_right _ _)⟩
  remark _ := enter rfl
  report _ _ _ _ := take _ _ _

end Reading.Gathers

namespace Scope

variable {scope : Scope} {e : Element} {holder : Holder} {s t : Session}

theorem parseDefinition_gathers (scope : Scope) (e : Element) (name : String) (aliases : List String) :
    Reading.Gathers [] (scope.parseDefinition e name aliases) := by
  have hparses := Reading.Gathers.parses scope.context none
  unfold parseDefinition
  cases scope.attributesOf e (e.attr? "class") name with
  | error fault => exact .after (hparses.error _ _ none) fun _ => hparses.done _
  | ok d =>
    refine .after (.foldlM (fun d => hparses.addChild scope.defaults d) _ _) fun d => ?_
    exact .after (.same fun _ => rfl) fun registry => hparses.done _

theorem parseDefinition_name {name : String} (aliases : List String) (hn : name ≠ "") :
    Reading.Gives (scope.parseDefinition e name aliases) fun parsed =>
      ∀ holder, parsed = some holder → holder.name = name := by
  unfold parseDefinition
  split
  · exact .bind (.any _) fun _ _ => .pure nofun
  · refine .bind (.any _) fun d _ => .bind (.any _) fun registry _ => .pure ?_
    rintro holder ⟨⟩
    exact if_neg hn

theorem parseBean_taken (h : scope.parseBean e s = (.ok (some holder), t)) (hg : e.givenNames ≠ []) :
    holder.name = e.givenName ∧ holder.name ∉ s.usedNames ∧ holder.name ∈ t.usedNames := by
  have hname : e.givenName ≠ "" := mt givenNames_eq_nil_iff.mpr hg
  cases hf : e.givenNames.find? (s.usedNames.contains ·) with
  | some name =>
    obtain ⟨remarks, hparsed⟩ := parseBean_clash scope (.inl hg) hf
    have hnone : Reading.Gives (do
        scope.context.error (.nameInUse name) e
        pure none : Reading (Option Holder)) fun parsed => parsed = none :=
      .bind (.any _) fun _ _ => .pure rfl
    exact absurd (hnone _ _ _ ((hparsed s.entries).symm.trans h)) nofun
  | none =>
    obtain ⟨aliases, remarks, hparsed⟩ := parseBean_free scope (.inl hg) hf
    have hrest := (hparsed s.entries).symm.trans h
    have hgiven : holder.name = e.givenName :=
      parseDefinition_name aliases hname _ _ _ hrest holder rfl
    have hmem : e.givenName ∈ e.givenNames := by
      obtain ⟨aliases, remarks, -, hfilter⟩ := namesOf_enters e s
      rw [← hfilter]
      exact List.mem_filter.mpr ⟨List.mem_cons_self, decide_eq_true hname⟩
    have hkept := ((parseDefinition_gathers scope e e.givenName aliases).idle
      { s with
        entries := (remarks.map JournalEntry.remark).reverse ++ s.entries
        usedNames := e.givenNames ++ s.usedNames }).used
    rw [hrest] at hkept
    rw [hgiven]
    refine ⟨rfl, fun hm => ?_, hkept (List.mem_append_left _ hmem)⟩
    exact List.find?_eq_none.mp hf _ hmem (List.contains_iff_mem.mpr hm)

end Scope

namespace Context

variable {ctx : Context}

theorem enroll_alias_gathers (e : Element) (name alt : String) :
    Reading.Gathers [] (ctx.enroll e (.naming name alt)) := by
  intro s
  cases hc : (s.registry.calls (fun _ _ => false) (Enrolment.naming name alt).calls).refusal with
  | none =>
    rw [enroll_accepted ctx e hc]
    refine ⟨[], .silent [] rfl ?_ (List.Subset.refl _)⟩
    rw [componentsIn_append, componentsIn_registered]
    split <;> rfl
  | some refusal =>
    obtain ⟨remarks, ht⟩ := enroll_refused ctx e hc
    rw [ht]
    refine ⟨[], .silent [] rfl ?_ (List.Subset.refl _)⟩
    rw [componentsIn_append, componentsIn_registered]
    change componentsIn (remarks.map JournalEntry.remark) = []
    exact componentsIn_talk (JournalEntry.Talk.remarks remarks)

theorem aliasElement_gathers (e : Element) : Reading.Gathers [] (ctx.aliasElement e) := by
  have hparses := Reading.Gathers.parses ctx none
  have hregister : Reading.Gathers [] (ctx.registerAlias e) :=
    enroll_alias_gathers e (e.attr "name") (e.attr "alias")
  have hnamed : Reading.Gathers [] (ctx.aliasNamed e) := by
    have hguarded := Reading.Gathers.ite
      (!Text.allBlank (e.attr "name") && !Text.allBlank (e.attr "alias")) hregister (hparses.done ())
    exact .ite _ (.after (hparses.error .emptyAlias e none) fun _ => hguarded) hguarded
  rw [aliasElement_eq]
  exact .ite _ (.after (hparses.error .emptyName e none) fun _ => hnamed) hnamed

theorem enroll_bean_told (e : Element) (holder : Holder) (s : Session) :
    ∃ journal, s.Entered journal (ctx.enroll e (.bean holder) s).2 ∧
      (componentsIn journal = [] ∨ componentsIn journal = [holder]) ∧
      (ctx.enroll e (.bean holder) s).2.usedNames = s.usedNames := by
  cases hc : (s.registry.calls (fun _ _ => false) (Enrolment.bean holder).calls).refusal with
  | none =>
    rw [enroll_accepted ctx e hc]
    refine ⟨_, rfl, ?_, rfl⟩
    rw [componentsIn_append, componentsIn_registered]
    cases ctx.listening with
    | true => exact .inr rfl
    | false => exact .inl rfl
  | some refusal =>
    obtain ⟨remarks, ht⟩ := enroll_refused ctx e hc
    rw [ht]
    refine ⟨_, rfl, .inl ?_, rfl⟩
    rw [componentsIn_append, componentsIn_registered]
    change componentsIn (remarks.map JournalEntry.remark) = []
    exact componentsIn_talk (JournalEntry.Talk.remarks remarks)

end Context

def Reading.TellsOf {α : Type} (elements : List Element) (act : Reading α) : Prop :=
  ∀ s : Session, ∃ beans, s.Tells elements beans (act s).2

namespace Reading.TellsOf

variable {α β : Type} {elements : List Element}

theorem before {act : Reading α} {next : α → Reading β} (ha : Gathers [] act)
    (hn : ∀ a, TellsOf elements (next a)) : TellsOf elements (act >>= next) := by
  intro s
  have hidle := ha.idle s
  rcases h : act s with ⟨f | a, t⟩
  · rw [bind_error next h]
    rw [h] at hidle
    exact ⟨[], (hidle.mono (List.nil_sublist _)).toTells⟩
  · rw [bind_ok next h]
    rw [h] at hidle
    obtain ⟨beans, hbeans⟩ := hn a t
    exact ⟨beans, hidle.toTells.between hbeans (Session.Gathers.refl _).toTells⟩

theorem after {act : Reading α} {next : α → Reading β} (ha : TellsOf elements act)
    (hn : ∀ a, Gathers [] (next a)) : TellsOf elements (act >>= next) := by
  intro s
  obtain ⟨beans, hbeans⟩ := ha s
  rcases h : act s with ⟨f | a, t⟩
  · rw [bind_error next h]
    rw [h] at hbeans
    exact ⟨beans, hbeans⟩
  · rw [bind_ok next h]
    rw [h] at hbeans
    exact ⟨beans, (Session.Gathers.refl s).toTells.between hbeans ((hn a).idle t).toTells⟩

end Reading.TellsOf

theorem Reading.Gathers.fresh {elements : List Element} {act : Reading Unit}
    (ha : Gathers elements act) : TellsOf elements (withFreshNames act) := by
  intro s
  obtain ⟨beans, hbeans⟩ := ha { s with usedNames := [] }
  exact ⟨beans, hbeans.told, hbeans.among, hbeans.named, hbeans.apart⟩

structure Element.Flat (e : Element) : Prop where
  isDefault : e.isDefault = true
  flat : ∀ child, .element child ∈ e.contents → child.isDefault = true →
    child.kind ≠ .importing ∧ child.kind ≠ .beans

namespace DocumentReader

variable {reader : DocumentReader} {ctx : Context} (hh : reader.handlers = [])
include hh

theorem beanElement_gathers (scope : Scope) (e : Element) :
    Reading.Gathers [e] (reader.beanElement scope e) := by
  intro s
  have hparse := ((Reading.Gathers.parses scope.context none).parseBean scope.defaults e).idle s
  rw [beanElement_eq]
  rcases h : scope.parseBean e s with ⟨f | parsed, t⟩
  · rw [Reading.bind_error _ h]
    rw [h] at hparse
    exact ⟨[], hparse.mono (List.nil_sublist _)⟩
  rw [Reading.bind_ok _ h]
  rw [h] at hparse
  cases parsed with
  | none => exact ⟨[], hparse.mono (List.nil_sublist _)⟩
  | some holder =>
    have hdecorate := ((Reading.Gathers.parses scope.context none).decorate (.of_nil hh)
      scope.defaults e holder).idle t
    rw [keepBean_some]
    rcases hd : scope.decorate reader.handlers e holder t with ⟨f | holder', u⟩
    · rw [Reading.bind_error _ hd]
      rw [hd] at hdecorate
      exact ⟨[], (hparse.trans hdecorate).mono (List.nil_sublist _)⟩
    rw [Reading.bind_ok _ hd]
    rw [hd] at hdecorate
    obtain rfl : holder' = holder := by
      rw [hh] at hd
      exact decorate_nil scope e holder t holder' u hd
    have hfirst := hparse.trans hdecorate
    obtain ⟨journal, hj, htold, hused⟩ := scope.context.enroll_bean_told e holder' u
    rcases htold with htold | htold
    · have hkept : u.usedNames ⊆ (scope.context.enroll e (.bean holder') u).2.usedNames :=
        fun _ hm => hused ▸ hm
      exact ⟨[], hfirst.trans (.silent [e] hj htold hkept)⟩
    · refine ⟨[(e, holder')], hfirst.one hj htold hused fun hg => ?_⟩
      obtain ⟨hnamed, hfresh, htaken⟩ := Scope.parseBean_taken h hg
      exact ⟨hnamed, hfresh, hdecorate.used htaken⟩

theorem readElement_gathers (defaults : Defaults) {e : Element}
    (he : e.isDefault = true → e.kind ≠ .importing ∧ e.kind ≠ .beans) :
    Reading.Gathers [e] (reader.readElement ⟨ctx, defaults⟩ e) := by
  have hmono : ∀ {act : Reading Unit}, Reading.Gathers [] act → Reading.Gathers [e] act :=
    fun ha s => ⟨[], (ha.idle s).mono (List.nil_sublist _)⟩
  unfold readElement
  cases hd : e.isDefault with
  | false => exact hmono ((Reading.Gathers.parses ctx none).parseCustom (.of_nil hh) defaults e)
  | true =>
    cases hk : e.kind with
    | importing => exact absurd hk (he hd).1
    | aliasing => exact hmono (Context.aliasElement_gathers e)
    | bean => exact beanElement_gathers hh _ e
    | beans => exact absurd hk (he hd).2
    | other => exact .same fun _ => rfl

theorem readContents_gathers (defaults : Defaults) (contents : List (Content Element))
    (hc : ∀ child, .element child ∈ contents → child.isDefault = true →
      child.kind ≠ .importing ∧ child.kind ≠ .beans) :
    Reading.Gathers (contents.filterMap Content.element?)
      (reader.readContents ⟨ctx, defaults⟩ contents) := by
  induction contents with
  | nil =>
    rw [readContents]
    exact .same fun _ => rfl
  | cons c rest ih =>
    have hrest := ih fun child hm => hc child (List.mem_cons_of_mem _ hm)
    cases c with
    | text s =>
      rw [readContents]
      exact hrest
    | element e =>
      rw [readContents_element]
      exact (readElement_gathers hh defaults (hc e List.mem_cons_self)).bind fun _ => hrest

theorem readScope_tells (outer : Defaults) {e : Element} (hf : e.Flat) :
    Reading.TellsOf e.children (reader.readScope ctx outer e) := by
  have hparses := Reading.Gathers.parses ctx none
  have hdone : Reading.TellsOf e.children (pure () : Reading Unit) := fun s =>
    ⟨[], ((Session.Gathers.refl s).mono (List.nil_sublist _)).toTells⟩
  have hinside : Reading.Gathers e.children (reader.readInside ⟨ctx, outer.enter e⟩ e) := by
    rw [readInside_default hf.isDefault]
    exact readContents_gathers hh _ e.contents hf.flat
  have hfire : Reading.Gathers [] (ctx.fire (.defaults (outer.enter e).resolve (ctx.source e))) :=
    .ite ctx.listening (.enter rfl) (.same fun _ => rfl)
  rw [readScope_eq]
  refine .before (hparses.admits e) fun accepted => ?_
  cases accepted with
  | false => exact hdone
  | true =>
    refine .before hfire fun _ => .before (.enter rfl) fun _ => ?_
    exact .after hinside.fresh fun _ => .enter rfl

end DocumentReader

namespace Loader

variable {l : Loader} (hh : l.documents.handlers = [])
include hh

theorem registerDocument_tells {root : Element} (hf : root.Flat) (depth : Nat) (r : Resource) :
    Reading.TellsOf root.children (l.registerDocument (l.importer depth) root r) := by
  have hget : Reading.Gathers [] (get : Reading Session) := .same fun _ => rfl
  unfold registerDocument
  refine .before hget fun before => .after (DocumentReader.readScope_tells hh [] hf) fun _ => ?_
  exact .after hget fun after => .same fun _ => rfl

/-- Unless a bean is refused for an alias, the definitions of a scope that is told of are all in the
registry at its end if and only if no generated name is the name of another of its beans. -/
theorem definitions_kept_iff (hl : l.listening = true) {root : Element} (hf : root.Flat) (depth : Nat)
    (r : Resource) {s t : Session} {o : Except Failure Nat} (he : s.registry.definitions = [])
    (h : l.registerDocument (l.importer depth) root r s = (o, t)) :
    ∃ journal, ∃ beans : List (Element × Holder),
      s.Entered journal t ∧ componentsIn journal = beans.map Prod.snd ∧
      (beans.map Prod.fst).Sublist root.children ∧
      (∀ b ∈ beans, b.1.givenNames ≠ [] → b.2.name = b.1.givenName) ∧
      (NoAliasRefused journal →
        (((∀ holder ∈ componentsIn journal,
              t.registry.definitions.get? holder.name = some holder.definition) ∧
            t.registry.size = (componentsIn journal).length) ↔
          beans.Pairwise fun x y =>
            x.1.givenNames = [] ∨ y.1.givenNames = [] → x.2.name ≠ y.2.name)) := by
  obtain ⟨beans, hbeans⟩ := registerDocument_tells hh hf depth r s
  obtain ⟨journal, hj, htable⟩ := (tabulates_law hl).registerDocument hh depth root r s
  obtain ⟨journal', hj', htold⟩ := hbeans.told
  rw [hj.unique hj'] at htold
  rw [h] at hj htable
  refine ⟨journal, beans, hj, htold, hbeans.among, hbeans.named, fun hno => ?_⟩
  have hdefinitions := htable hno
  rw [he] at hdefinitions
  rw [kept_iff_names hdefinitions, htold, List.map_map]
  -- the scope keeps apart what beans name themselves, which leaves pairs with a generated name
  change (beans.map fun b => b.2.name).Pairwise (· ≠ ·) ↔ _
  rw [List.pairwise_map]
  constructor
  · intro hall
    refine hall.imp ?_
    intro x y hne _
    exact hne
  · intro hgenerated
    refine (hgenerated.and hbeans.apart).imp fun {x y} ⟨hsome, hboth⟩ => ?_
    by_cases hx : x.1.givenNames = []
    · exact hsome (.inl hx)
    by_cases hy : y.1.givenNames = []
    · exact hsome (.inr hy)
    · exact hboth hx hy

end Loader

def plainBean (attributes : Table String) : Element := ⟨"bean", none, attributes, [], some 1⟩

def plainRoot (beans : List (Table String)) (aliases : List (String × String)) : Element :=
  ⟨"beans", none, [], beans.map (fun attributes => .element (plainBean attributes)) ++
    aliases.map fun (name, alt) => .element (pairAlias name alt), some 1⟩

theorem plainRoot_flat (beans : List (Table String)) (aliases : List (String × String)) :
    (plainRoot beans aliases).Flat where
  isDefault := rfl
  flat child hm _ := by
    have hbean : ElementKind.ofTag "bean" ≠ .importing ∧ ElementKind.ofTag "bean" ≠ .beans := by decide
    have halias : ElementKind.ofTag "alias" ≠ .importing ∧ ElementKind.ofTag "alias" ≠ .beans := by
      decide
    rcases List.mem_append.mp hm with hm | hm
    · obtain ⟨attributes, -, he⟩ := List.mem_map.mp hm
      obtain rfl : plainBean attributes = child := by injection he
      exact hbean
    · obtain ⟨⟨name, alt⟩, -, he⟩ := List.mem_map.mp hm
      obtain rfl : pairAlias name alt = child := by injection he
      exact halias

def keptRoot : Element :=
  plainRoot [[("id", "C#1"), ("class", "A")], [("class", "C")], [("class", "C")],
    [("name", "a b"), ("class", "D")], [("id", "a"), ("class", "E")]] [("C#0", "c"), ("a", "c")]

def keptRun : Except Failure Nat × Session :=
  pairLoader.registerDocument (pairLoader.importer 0) keptRoot (.bytes [] none) {}

theorem keptRun_keeps : pairLoader.documents.handlers = [] ∧ pairLoader.listening = true ∧
    keptRoot.Flat ∧ (componentsIn keptRun.2.journal).map (·.name) = ["C#1", "C#0", "C#2", "a"] ∧
      NoAliasRefused keptRun.2.journal ∧
      (∀ holder ∈ componentsIn keptRun.2.journal,
        keptRun.2.registry.definitions.get? holder.name = some holder.definition) ∧
      keptRun.2.registry.size = (componentsIn keptRun.2.journal).length := by
  obtain ⟨hfaults, hnames⟩ : (problemsOf .error keptRun.2.journal).map (·.fault) = [.nameInUse "a"] ∧
      (componentsIn keptRun.2.journal).map (·.name) = ["C#1", "C#0", "C#2", "a"] := by
    decide +kernel
  have hno : NoAliasRefused keptRun.2.journal := by
    intro p hp name refusal hf
    have hm := List.mem_map_of_mem (f := fun p : Problem => p.fault) hp
    rw [hfaults, List.mem_singleton, hf] at hm
    cases hm
  have hflat : keptRoot.Flat := plainRoot_flat _ _
  have hrun : keptRun = (keptRun.1, keptRun.2) := Prod.mk.eta.symm
  obtain ⟨journal, beans, hj, htold, -, -, hkept⟩ := Loader.definitions_kept_iff (l := pairLoader) rfl
    rfl hflat 0 (.bytes [] none) (s := {}) rfl hrun
  rw [← hj.journal] at htold hkept
  have hdistinct : beans.Pairwise fun x y =>
      x.1.givenNames = [] ∨ y.1.givenNames = [] → x.2.name ≠ y.2.name := by
    have hnodup : ((beans.map Prod.snd).map (·.name)).Nodup := by
      rw [← htold, hnames]
      decide
    rw [List.map_map, List.Nodup, List.pairwise_map] at hnodup
    refine hnodup.imp ?_
    intro x y hne _
    exact hne
  exact ⟨rfl, rfl, hflat, hnames, hno, (hkept hno).mpr hdistinct⟩

def takenRoot : Element := plainRoot [[("class", "C")], [("id", "C#0"), ("class", "D")]] []

def takenRun : Except Failure Nat × Session :=
  pairLoader.registerDocument (pairLoader.importer 0) takenRoot (.bytes [] none) {}

theorem generatedName_taken : pairLoader.documents.handlers = [] ∧ takenRoot.Flat ∧
    problemsOf .error takenRun.2.journal = [] ∧
      (componentsIn takenRun.2.journal).map (fun holder => (holder.name, holder.definition.className)) =
        [("C#0", some "C"), ("C#0", some "D")] ∧
      takenRun.2.registry.definitions.map (fun (name, d) => (name, d.className)) =
        [("C#0", some "D")] := by
  have hproblems : (problemsOf .error takenRun.2.journal).map (·.fault) = [] := by decide +kernel
  refine ⟨rfl, plainRoot_flat _ _, List.map_eq_nil_iff.mp hproblems, ?_⟩
  decide +kernel

end BeanCatalog
