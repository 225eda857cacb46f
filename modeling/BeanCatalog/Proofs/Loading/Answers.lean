import BeanCatalog.Proofs.Loading.Journals

namespace BeanCatalog

def JournalEntry.traced : JournalEntry → Bool
  | .registering _ | .remark _ | .note .. => false
  | _ => true

def course (journal : List JournalEntry) : List JournalEntry := journal.filter (·.traced)

/-- Whether an entry is a problem or an event, other than that of the defaults of a scope. -/
def JournalEntry.own : JournalEntry → Bool
  | .event (.defaults ..) => false
  | .event _ | .problem .. => true
  | _ => false

theorem warnings_own (warning : Option Problem) :
    ∀ entry ∈ warning.toList.map (JournalEntry.problem .warning), entry.own = true := by
  intro entry hm
  obtain ⟨p, -, rfl⟩ := List.mem_map.mp hm
  rfl

namespace Resource

def sourceOf (r : Resource) (e : Element) : SourceLocation := ⟨some r.description, e.line⟩

inductive Blames (r : Resource) (e : Element) : JournalEntry → Prop
  | intro (p : Problem) (he : p.element = some e) (hr : p.resource = some r.description) :
      Blames r e (.problem .error p)

inductive Announces (r : Resource) (e : Element) : Event → Prop
  | aliased (hk : e.kind = .aliasing) :
      Announces r e (.aliased (e.attr "name") (e.attr "alias") (r.sourceOf e))
  | bean (hk : e.kind = .bean) (holder : Holder) : Announces r e (.component holder (r.sourceOf e))

inductive Answers (r : Resource) (e : Element) : List JournalEntry → Prop
  | refused {own : List JournalEntry} {entry : JournalEntry} (hm : entry ∈ own)
      (he : r.Blames e entry) (h : ∀ other ∈ own, ∃ x, (x = e ∨ x ∈ e.children) ∧ r.Blames x other) :
      Answers r e own
  | announced {errors : List JournalEntry} {event : Event} (he : r.Announces e event)
      (h : ∀ other ∈ errors, ∃ c ∈ e.children, r.Blames c other) :
      Answers r e (errors ++ [.event event])

variable {r : Resource} {e : Element} {entry : JournalEntry} {told : List JournalEntry}

theorem Blames.own (h : r.Blames e entry) : entry.own = true := by
  cases h
  rfl

theorem Answers.own (h : r.Answers e told) : ∀ entry ∈ told, entry.own = true := by
  intro entry hm
  cases h with
  | refused _ _ hall =>
    obtain ⟨x, -, hx⟩ := hall entry hm
    exact hx.own
  | announced he hall =>
    rcases List.mem_append.mp hm with hm | hm
    · obtain ⟨c, -, hc⟩ := hall entry hm
      exact hc.own
    · rw [List.mem_singleton.mp hm]
      cases he <;> rfl

end Resource

section

variable {first rest journal : List JournalEntry} {e : JournalEntry}

theorem course_append (first rest : List JournalEntry) :
    course (first ++ rest) = course first ++ course rest := List.filter_append ..

theorem course_cons (he : e.traced = true) : course (e :: rest) = e :: course rest :=
  List.filter_cons_of_pos he

theorem course_registered (r : Registry Definition) (calls : List (RegistryCall Definition)) :
    course (Reading.registered r calls) = [] := by
  apply List.filter_eq_nil_iff.mpr
  intro entry hm
  rcases List.mem_cons.mp hm with rfl | hm
  · exact nofun
  · obtain ⟨replacement, -, rfl⟩ := List.mem_map.mp hm
    exact nofun

end

namespace Reading

def Tells {α : Type} (act : Reading α) (P : α → List JournalEntry → Prop) : Prop :=
  ∀ s : Session, ∃ a t journal, act s = (.ok a, t) ∧ s.Entered journal t ∧ P a (course journal)

namespace Tells

variable {α β : Type} {act : Reading α} {P Q : α → List JournalEntry → Prop}

theorem mono (h : Tells act P) (hPQ : ∀ a j, P a j → Q a j) : Tells act Q := by
  intro s
  obtain ⟨a, t, journal, ha, hj, hP⟩ := h s
  exact ⟨a, t, journal, ha, hj, hPQ a _ hP⟩

theorem pure {a : α} (h : P a []) : Tells (pure a) P := fun s => ⟨a, s, [], rfl, .refl s, h⟩

theorem bind {next : α → Reading β} {R : β → List JournalEntry → Prop} (ha : Tells act P)
    (hn : ∀ a first, P a first → Tells (next a) fun b rest => R b (first ++ rest)) :
    Tells (act >>= next) R := by
  intro s
  obtain ⟨a, t, first, hact, hfirst, hP⟩ := ha s
  obtain ⟨b, u, rest, hnext, hrest, hR⟩ := hn a _ hP t
  refine ⟨b, u, first ++ rest, ?_, hfirst.trans hrest, ?_⟩
  · rw [bind_ok next hact]
    exact hnext
  · rw [course_append]
    exact hR

theorem after {next : α → Reading β} {R : β → List JournalEntry → Prop}
    (ha : Tells act fun _ j => j = []) (hn : ∀ a, Tells (next a) R) : Tells (act >>= next) R := by
  refine ha.bind fun a first hfirst => ?_
  subst hfirst
  exact hn a

theorem enter (e : JournalEntry) : Tells (enter e) fun _ j => j = course [e] := fun s =>
  ⟨(), { s with entries := e :: s.entries }, [e], rfl, rfl, rfl⟩

theorem remark (r : Remark) : Tells (remark r) fun _ j => j = [] := enter (.remark r)

theorem get : Tells (get : Reading Session) fun _ j => j = [] := fun s =>
  ⟨s, s, [], rfl, .refl s, rfl⟩

theorem register (calls : List (RegistryCall Definition)) :
    Tells (register calls) fun _ j => j = [] := fun s =>
  ⟨_, _, _, register_apply calls s, rfl, course_registered _ _⟩

theorem withFreshNames {act : Reading Unit} {P : Unit → List JournalEntry → Prop} (h : Tells act P) :
    Tells (withFreshNames act) P := by
  intro s
  obtain ⟨a, t, journal, ha, hj, hP⟩ := h { s with usedNames := [] }
  refine ⟨a, { t with usedNames := s.usedNames }, journal, ?_, hj, hP⟩
  unfold Reading.withFreshNames
  rw [ha]

theorem foldlM {γ : Type} {step : β → γ → Reading β} {B : γ → JournalEntry → Prop}
    (h : ∀ b c, Tells (step b c) fun _ j => ∀ entry ∈ j, B c entry) (cs : List γ) (b : β) :
    Tells (cs.foldlM step b) fun _ j => ∀ entry ∈ j, ∃ c ∈ cs, B c entry := by
  induction cs generalizing b with
  | nil => exact .pure fun _ hm => absurd hm List.not_mem_nil
  | cons c cs ih =>
    rw [List.foldlM_cons]
    refine (h b c).bind fun b' first hfirst => (ih b').mono fun _ rest hrest entry hm => ?_
    rcases List.mem_append.mp hm with hm | hm
    · exact ⟨c, List.mem_cons_self, hfirst entry hm⟩
    · obtain ⟨c', hc', hB⟩ := hrest entry hm
      exact ⟨c', List.mem_cons_of_mem c hc', hB⟩

theorem foldlM_nothing {γ : Type} {step : β → γ → Reading β}
    (h : ∀ b c, Tells (step b c) fun _ j => j = []) (cs : List γ) (b : β) :
    Tells (cs.foldlM step b) fun _ j => j = [] := by
  induction cs generalizing b with
  | nil => exact .pure rfl
  | cons c cs ih =>
    rw [List.foldlM_cons]
    exact (h b c).after ih

end Tells

end Reading

open Reading

variable {ctx : Context} {e : Element} {defaults : Defaults}

theorem event_tells (hl : ctx.listening = true) (event : Event) :
    Tells (ctx.fire event) fun _ j => j = [.event event] := by
  unfold Context.fire
  rw [if_pos hl]
  exact .enter _

section

variable (hr : ctx.reporter = .collecting)
include hr

theorem report_tells (severity : Severity) (fault : Fault) (element : Option Element)
    (cause : Option Failure) :
    Tells (ctx.report severity fault element cause) fun _ j =>
      j = [.problem severity ⟨fault, element, cause, some ctx.resource.description⟩] := by
  unfold Context.report
  rw [hr]
  intro s
  exact ⟨(), _, [.problem severity _, .remark (.problem severity _)], rfl, rfl, rfl⟩

theorem error_tells (fault : Fault) (e : Element) (cause : Option Failure) :
    Tells (ctx.error fault e cause) fun _ j => ∃ entry, j = [entry] ∧ ctx.resource.Blames e entry :=
  (report_tells hr .error fault (some e) cause).mono fun _ _ hj => ⟨_, hj, .intro _ rfl rfl⟩

theorem error_pure_tells {α : Type} (fault : Fault) (e : Element) (cause : Option Failure) (a : α) :
    Tells (do ctx.error fault e cause; pure a) fun b j =>
      b = a ∧ ∃ entry, j = [entry] ∧ ctx.resource.Blames e entry := by
  refine (error_tells hr fault e cause).bind fun _ first hfirst => .pure ⟨rfl, ?_⟩
  rwa [List.append_nil]

theorem custom_tells (e : Element) :
    Tells (do let _ ← Scope.parseCustom ⟨ctx, defaults⟩ [] e) fun _ j =>
      ∃ entry, j = [entry] ∧ ctx.resource.Blames e entry := by
  rw [Scope.parseCustom_nil]
  refine (error_pure_tells hr _ e none none).bind fun _ first hfirst => .pure ?_
  rw [List.append_nil]
  exact hfirst.2

theorem addChild_tells (d : Definition) (c : Element) :
    Tells (Scope.addChild ⟨ctx, defaults⟩ d c) fun _ j => ∀ entry ∈ j, ctx.resource.Blames c entry := by
  have hpure (d : Definition) : Tells (pure d) fun _ j => ∀ entry ∈ j, ctx.resource.Blames c entry :=
    .pure fun _ hm => absurd hm List.not_mem_nil
  have hkeep (parsed : Except Fault PropertyValue) (store : PropertyValue → Definition) :
      Tells (Scope.keep ⟨ctx, defaults⟩ c parsed store d) fun _ j =>
        ∀ entry ∈ j, ctx.resource.Blames c entry := by
    cases parsed with
    | ok v => exact hpure _
    | error fault =>
      refine (error_pure_tells hr fault c none d).mono ?_
      rintro _ _ ⟨-, entry, rfl, hb⟩ other hm
      exact List.mem_singleton.mp hm ▸ hb
  unfold Scope.addChild
  split
  · exact hpure _
  split
  · exact hpure _
  split
  · exact hkeep _ _
  split
  · exact hkeep _ _
  · exact hpure _

theorem takeNames_tells (names : List String) (e : Element) :
    Tells (Scope.takeNames ⟨ctx, defaults⟩ names e) fun taken j =>
      if taken then j = [] else ∃ entry, j = [entry] ∧ ctx.resource.Blames e entry := by
  refine Tells.get.after fun s => ?_
  dsimp only
  cases (names.filter (· ≠ "")).find? (s.usedNames.contains ·) with
  | some name =>
    refine (error_pure_tells hr (.nameInUse name) e none false).mono ?_
    rintro _ _ ⟨rfl, hj⟩
    exact hj
  | none => exact fun t => ⟨true, _, [], rfl, rfl, rfl⟩

theorem parseNamed_tells (e : Element) (name : String) (aliases : List String) :
    Tells (Scope.parseNamed ⟨ctx, defaults⟩ e name aliases) fun parsed j =>
      if parsed.isSome then ∀ entry ∈ j, ∃ c ∈ e.children, ctx.resource.Blames c entry
      else ∃ entry, j = [entry] ∧ ctx.resource.Blames e entry := by
  refine (takeNames_tells hr (name :: aliases) e).bind fun taken first hfirst => ?_
  cases taken with
  | false => exact .pure (by simpa using hfirst)
  | true =>
    obtain rfl : first = [] := hfirst
    dsimp only [Bool.not_true, Bool.false_eq_true, if_false, List.nil_append]
    unfold Scope.parseDefinition
    cases Scope.attributesOf ⟨ctx, defaults⟩ e (e.attr? "class") name with
    | error fault =>
      refine (error_pure_tells hr fault e none none).mono ?_
      rintro _ _ ⟨rfl, hj⟩
      exact hj
    | ok d =>
      refine (Tells.foldlM (fun d c => addChild_tells hr d c) e.children d).bind
        fun d' faults hfaults => ?_
      refine Tells.get.after fun s => .pure ?_
      rwa [List.append_nil]

theorem parseBean_tells (e : Element) :
    Tells (Scope.parseBean ⟨ctx, defaults⟩ e) fun parsed j =>
      if parsed.isSome then ∀ entry ∈ j, ∃ c ∈ e.children, ctx.resource.Blames c entry
      else ∃ entry, j = [entry] ∧ ctx.resource.Blames e entry := by
  have hnames : Tells (Scope.namesOf e) fun _ j => j = [] := by
    unfold Scope.namesOf
    dsimp only
    split
    · exact (Tells.remark _).after fun _ => .pure rfl
    · exact .pure rfl
  rw [Scope.parseBean_eq]
  refine hnames.after fun (name, aliases) => ?_
  dsimp only
  split
  · refine (error_pure_tells hr .unnamed e none none).mono ?_
    rintro _ _ ⟨rfl, hj⟩
    exact hj
  · exact parseNamed_tells hr e _ _

omit hr in
theorem decorate_tells (e : Element) (holder : Holder) :
    Tells (Scope.decorate ⟨ctx, defaults⟩ [] e holder) fun _ j => j = [] := by
  have hby (holder : Holder) (uri : String) (node : Element) (name : Option String) :
      Tells (Scope.decorateBy ⟨ctx, defaults⟩ [] uri node name holder) fun _ j => j = [] := by
    unfold Scope.decorateBy
    split
    · exact .pure rfl
    · exact (Tells.remark _).after fun _ => .pure rfl
  refine (Tells.foldlM_nothing (fun holder name => ?_) _ holder).after fun holder =>
    Tells.foldlM_nothing (fun holder child => ?_) _ holder
  · cases foreignUri? name with
    | some uri => exact hby _ _ _ _
    | none => exact .pure rfl
  · split
    · exact .pure rfl
    · exact hby _ _ _ _

variable (hl : ctx.listening = true)
include hl

theorem enroll_tells (e : Element) (enrolment : Enrolment) :
    Tells (ctx.enroll e enrolment) fun _ j =>
      (∃ entry, j = [entry] ∧ ctx.resource.Blames e entry) ∨
        j = [.event (enrolment.event (ctx.resource.sourceOf e))] := by
  refine (Tells.register _).after fun refusal => ?_
  cases refusal with
  | some refusal => exact (error_tells hr _ e _).mono fun _ _ hj => .inl hj
  | none => exact (event_tells hl _).mono fun _ _ hj => .inr hj

theorem aliasElement_answers (hk : e.kind = .aliasing) :
    Tells (ctx.aliasElement e) fun _ j => ctx.resource.Answers e j := by
  have hself {j : List JournalEntry} (hj : ∃ entry, j = [entry] ∧ ctx.resource.Blames e entry) :
      j ≠ [] ∧ ∀ entry ∈ j, ctx.resource.Blames e entry := by
    obtain ⟨entry, rfl, hb⟩ := hj
    exact ⟨List.cons_ne_nil _ _, fun _ hm => List.mem_singleton.mp hm ▸ hb⟩
  have hrefused {j : List JournalEntry} (hne : j ≠ [])
      (hj : ∀ entry ∈ j, ctx.resource.Blames e entry) : ctx.resource.Answers e j := by
    obtain ⟨entry, rest, rfl⟩ := List.exists_cons_of_ne_nil hne
    exact .refused List.mem_cons_self (hj entry List.mem_cons_self)
      fun other hm => ⟨e, .inl rfl, hj other hm⟩
  rw [Context.aliasElement_eq]
  unfold Context.aliasNamed
  cases hn : Text.allBlank (e.attr "name") <;> cases ha : Text.allBlank (e.attr "alias") <;>
    simp only [Bool.false_eq_true, if_false, if_true, Bool.not_false, Bool.not_true, Bool.and_self,
      Bool.and_false, Bool.and_true]
  · refine (enroll_tells hr hl e (.naming (e.attr "name") (e.attr "alias"))).mono fun _ j hj => ?_
    rcases hj with hj | rfl
    · exact hrefused (hself hj).1 (hself hj).2
    · have hnone : ∀ other ∈ [], ∃ c ∈ e.children, ctx.resource.Blames c other := fun _ hm =>
        absurd hm List.not_mem_nil
      exact .announced (.aliased hk) hnone
  · refine (error_tells hr .emptyAlias e none).bind fun _ j hj => .pure ?_
    rw [List.append_nil]
    exact hrefused (hself hj).1 (hself hj).2
  · refine (error_tells hr .emptyName e none).bind fun _ j hj => .pure ?_
    rw [List.append_nil]
    exact hrefused (hself hj).1 (hself hj).2
  · refine (error_tells hr .emptyName e none).bind fun _ first hfirst => ?_
    refine (error_tells hr .emptyAlias e none).bind fun _ rest hrest => .pure ?_
    rw [List.append_nil]
    refine hrefused (List.append_ne_nil_of_left_ne_nil (hself hfirst).1 _) fun entry hm => ?_
    exact (List.mem_append.mp hm).elim ((hself hfirst).2 entry) ((hself hrest).2 entry)

theorem beanElement_answers {reader : DocumentReader} (hh : reader.handlers = [])
    (hk : e.kind = .bean) :
    Tells (reader.beanElement ⟨ctx, defaults⟩ e) fun _ j => ctx.resource.Answers e j := by
  rw [DocumentReader.beanElement_eq]
  refine (parseBean_tells hr e).bind fun parsed errors herrors => ?_
  cases parsed with
  | none =>
    obtain ⟨entry, rfl, hb⟩ := herrors
    refine .pure (.refused List.mem_cons_self hb fun other hm => ⟨e, .inl rfl, ?_⟩)
    exact List.mem_singleton.mp hm ▸ hb
  | some holder =>
    have herrors : ∀ entry ∈ errors, ∃ c ∈ e.children, ctx.resource.Blames c entry := herrors
    rw [DocumentReader.keepBean_some, hh]
    refine (decorate_tells e holder).after fun holder => ?_
    refine (enroll_tells hr hl e (.bean holder)).mono fun _ j hj => ?_
    rcases hj with ⟨entry, rfl, hb⟩ | rfl
    · refine .refused (List.mem_append_right _ List.mem_cons_self) hb fun other hm => ?_
      rcases List.mem_append.mp hm with hm | hm
      · obtain ⟨c, hc, hother⟩ := herrors other hm
        exact ⟨c, .inr hc, hother⟩
      · exact ⟨e, .inl rfl, List.mem_singleton.mp hm ▸ hb⟩
    · exact .announced (.bean hk holder) herrors

end

end BeanCatalog
