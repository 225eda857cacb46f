import BeanCatalog.Proofs.Loading.Rejections
import Mathlib.Data.List.Induction

namespace BeanCatalog

/-- The elements of a list that are picked for what they are and for what stands before them. -/
def pick {α : Type} (P : List α → α → Prop) [∀ before a, Decidable (P before a)]
    (before : List α) : List α → List α
  | [] => []
  | a :: rest =>
    if P before a then a :: pick P (before ++ [a]) rest else pick P (before ++ [a]) rest

section

variable {α : Type} {P : List α → α → Prop} [∀ before a, Decidable (P before a)]

theorem pick_concat (before l : List α) (a : α) :
    pick P before (l ++ [a]) = pick P before l ++ if P (before ++ l) a then [a] else [] := by
  induction l generalizing before with
  | nil =>
    simp only [List.nil_append, pick, List.append_nil]
  | cons b l ih =>
    rw [List.cons_append, pick, pick, ih, List.append_assoc, List.singleton_append]
    split <;> simp

theorem mem_of_mem_pick {before l : List α} {a : α} (h : a ∈ pick P before l) :
    a ∈ l ∧ ∃ front, P front a := by
  induction l generalizing before with
  | nil => cases h
  | cons b l ih =>
    rw [pick] at h
    split at h
    next hb =>
      rcases List.mem_cons.mp h with rfl | h
      · exact ⟨List.mem_cons_self, before, hb⟩
      · exact (ih h).imp_left (List.mem_cons_of_mem _)
    next => exact (ih h).imp_left (List.mem_cons_of_mem _)

end

namespace Element

variable (c : Element)

def GivesOne : Prop :=
  (c.hasAttr "value" = true ∧ c.hasAttr "ref" = false) ∨
    (c.hasAttr "value" = false ∧ c.hasAttr "ref" = true ∧ c.attr "ref" ≠ "")

def given : PropertyValue :=
  ⟨c.attr? "name", if c.hasAttr "ref" then .ref (c.attr "ref") else .value (c.attr "value")⟩

def IsProperty : Prop := c.isDefault = true ∧ c.tag = "property"

def IsArgument : Prop := c.isDefault = true ∧ c.tag = "constructor-arg"

structure ValidProperty : Prop where
  isProperty : c.IsProperty
  named : c.attr "name" ≠ ""
  one : c.GivesOne

structure ValidArgument : Prop where
  isArgument : c.IsArgument
  one : c.GivesOne

structure FirstOfName (before : List Element) (c : Element) : Prop where
  valid : c.ValidProperty
  first : ∀ b ∈ before, b.ValidProperty → b.attr "name" ≠ c.attr "name"

def LeftOut (before : List Element) (c : Element) : Prop :=
  (c.IsProperty ∧ ¬ FirstOfName before c) ∨ (c.IsArgument ∧ ¬ c.ValidArgument)

instance : Decidable c.GivesOne := inferInstanceAs (Decidable (_ ∨ _))

instance : Decidable c.IsProperty := inferInstanceAs (Decidable (_ ∧ _))

instance : Decidable c.IsArgument := inferInstanceAs (Decidable (_ ∧ _))

instance : Decidable c.ValidProperty :=
  decidable_of_iff (c.IsProperty ∧ c.attr "name" ≠ "" ∧ c.GivesOne)
    ⟨fun h => ⟨h.1, h.2.1, h.2.2⟩, fun h => ⟨h.isProperty, h.named, h.one⟩⟩

instance : Decidable c.ValidArgument :=
  decidable_of_iff (c.IsArgument ∧ c.GivesOne)
    ⟨fun h => ⟨h.1, h.2⟩, fun h => ⟨h.isArgument, h.one⟩⟩

instance (before : List Element) : Decidable (FirstOfName before c) :=
  decidable_of_iff (c.ValidProperty ∧ ∀ b ∈ before, b.ValidProperty → b.attr "name" ≠ c.attr "name")
    ⟨fun h => ⟨h.1, h.2⟩, fun h => ⟨h.valid, h.first⟩⟩

instance (before : List Element) : Decidable (LeftOut before c) := inferInstanceAs (Decidable (_ ∨ _))

end Element

open Element

/-- What a definition has of the children of its bean, and the problems that were reported of them. -/
structure Collects (children : List Element) (d : Definition) (problems : List (Severity × Problem)) :
    Prop where
  properties : d.properties = (pick FirstOfName [] children).map given
  constructorArgs : d.constructorArgs = (children.filter fun c => c.ValidArgument).map given
  errors : problems.map (fun (severity, p) => (severity, p.element)) =
    (pick LeftOut [] children).map fun c => (.error, some c)
  distinct : (d.properties.map (·.name)).Nodup
  single : ∀ v ∈ d.properties ++ d.constructorArgs,
    (∃ s, v.argument = .value s) ∨ ∃ name, name ≠ "" ∧ v.argument = .ref name

section

variable {before : List Element} {c : Element} {d : Definition} {v : PropertyValue}

theorem given_name (hn : c.attr "name" ≠ "") : c.given.name = some (c.attr "name") := if_neg hn

theorem Element.GivesOne.single (h : c.GivesOne) : (∃ s, c.given.argument = .value s) ∨
    ∃ name, name ≠ "" ∧ c.given.argument = .ref name := by
  rcases h with ⟨-, hr⟩ | ⟨-, hr, hne⟩
  · exact .inl ⟨c.attr "value", by simp [given, hr]⟩
  · exact .inr ⟨c.attr "ref", hne, by simp [given, hr]⟩

theorem not_isProperty_of_isArgument (h : c.IsArgument) : ¬ c.IsProperty := by
  intro hp
  have htags : "property" = "constructor-arg" := hp.2.symm.trans h.2
  exact absurd htags (by decide)

theorem not_firstOfName_of_isArgument (h : c.IsArgument) : ¬ FirstOfName before c :=
  fun hfirst => not_isProperty_of_isArgument h hfirst.valid.isProperty

theorem not_validArgument_of_isProperty (h : c.IsProperty) : ¬ c.ValidArgument :=
  fun hvalid => not_isProperty_of_isArgument hvalid.isArgument h

theorem leftOut_property_iff (h : c.IsProperty) : LeftOut before c ↔ ¬ FirstOfName before c := by
  have hargument : ¬ c.IsArgument := fun ha => not_isProperty_of_isArgument ha h
  simp [LeftOut, h, hargument]

theorem leftOut_argument_iff (h : c.IsArgument) : LeftOut before c ↔ ¬ c.ValidArgument := by
  simp [LeftOut, h, not_isProperty_of_isArgument h]

theorem argument_eq_ok_iff : Scope.argument c = .ok v ↔ c.GivesOne ∧ v = c.given := by
  unfold Scope.argument GivesOne given
  cases c.hasAttr "value" <;> cases c.hasAttr "ref"
  · simp
  · by_cases hne : c.attr "ref" = ""
    · simp [hne]
    · simpa [hne] using eq_comm
  · simpa using eq_comm
  · simp

theorem exists_first_of_name {b : Element} (hm : b ∈ before) (hb : b.ValidProperty) :
    ∃ a ∈ pick FirstOfName [] before, a.attr "name" = b.attr "name" := by
  induction before using List.reverseRecOn generalizing b with
  | nil => cases hm
  | append_singleton front a ih =>
    rw [pick_concat]
    rcases List.mem_append.mp hm with hm | hm
    · obtain ⟨first, hf, hname⟩ := ih hm hb
      exact ⟨first, List.mem_append_left _ hf, hname⟩
    · obtain rfl := List.mem_singleton.mp hm
      -- unless it is the first of its name itself, one in front of it has the name
      by_cases hfirst : FirstOfName front b
      · exact ⟨b, by simp [hfirst], rfl⟩
      · have hother : ∃ o ∈ front, o.ValidProperty ∧ o.attr "name" = b.attr "name" := by
          by_contra hnone
          exact hfirst ⟨hb, fun o ho hv he => hnone ⟨o, ho, hv, he⟩⟩
        obtain ⟨o, ho, hv, he⟩ := hother
        obtain ⟨first, hf, hname⟩ := ih ho hv
        exact ⟨first, List.mem_append_left _ hf, hname.trans he⟩

theorem nodup_names (children : List Element) :
    ((pick FirstOfName [] children).map fun c => c.given.name).Nodup := by
  induction children using List.reverseRecOn with
  | nil => exact List.nodup_nil
  | append_singleton front c ih =>
    rw [pick_concat]
    split
    next hfirst =>
      rw [List.map_append, List.map_singleton, List.nodup_append]
      refine ⟨ih, List.nodup_singleton _, ?_⟩
      rintro name hm _ hc rfl
      rw [List.mem_singleton, given_name hfirst.valid.named] at hc
      obtain ⟨b, hb, hname⟩ := List.mem_map.mp hm
      obtain ⟨hmem, earlier, hvalid⟩ := mem_of_mem_pick hb
      rw [given_name hvalid.valid.named, hc] at hname
      exact hfirst.first b hmem hvalid.valid (Option.some.inj hname)
    next => rwa [List.append_nil]

theorem Collects.of_lists {children : List Element} {problems : List (Severity × Problem)}
    (hp : d.properties = (pick FirstOfName [] children).map given)
    (ha : d.constructorArgs = (children.filter fun c => c.ValidArgument).map given)
    (he : problems.map (fun (severity, p) => (severity, p.element)) =
      (pick LeftOut [] children).map fun c => (.error, some c)) : Collects children d problems := by
  refine ⟨hp, ha, he, ?_, ?_⟩
  · rw [hp, List.map_map]
    exact nodup_names children
  · intro v hv
    rw [hp, ha, ← List.map_append] at hv
    obtain ⟨c, hc, rfl⟩ := List.mem_map.mp hv
    rcases List.mem_append.mp hc with hc | hc
    · obtain ⟨-, front, hfirst⟩ := mem_of_mem_pick hc
      exact hfirst.valid.one.single
    · have hvalid : c.ValidArgument := of_decide_eq_true (List.mem_filter.mp hc).2
      exact hvalid.one.single

namespace Collects

variable {problems : List (Severity × Problem)} (h : Collects before d problems)
include h

theorem any_name_iff :
    d.properties.any (·.name == some (c.attr "name")) = true ↔
      ∃ b ∈ before, b.ValidProperty ∧ b.attr "name" = c.attr "name" := by
  rw [h.properties]
  simp only [List.any_map, List.any_eq_true, Function.comp_apply, beq_iff_eq]
  constructor
  · rintro ⟨a, ha, hname⟩
    obtain ⟨hm, front, hfirst⟩ := mem_of_mem_pick ha
    rw [given_name hfirst.valid.named] at hname
    exact ⟨a, hm, hfirst.valid, Option.some.inj hname⟩
  · rintro ⟨b, hm, hb, hname⟩
    obtain ⟨a, ha, hfirst⟩ := exists_first_of_name hm hb
    obtain ⟨-, front, hvalid⟩ := mem_of_mem_pick ha
    exact ⟨a, ha, by rw [given_name hvalid.valid.named, hfirst, hname]⟩

theorem property_eq_ok_iff (hp : c.IsProperty) :
    Scope.property d.properties c = .ok v ↔ FirstOfName before c ∧ v = c.given := by
  unfold Scope.property
  dsimp only
  by_cases hn : c.attr "name" = ""
  · simp only [hn, if_true]
    exact iff_of_false nofun fun hv => hv.1.valid.named hn
  rw [if_neg hn]
  split
  next hany =>
    obtain ⟨b, hm, hb, hname⟩ := h.any_name_iff.mp hany
    exact iff_of_false nofun fun hv => hv.1.first b hm hb hname
  next hany =>
    rw [argument_eq_ok_iff]
    refine and_congr_left fun _ => ⟨fun hone => ⟨⟨hp, hn, hone⟩, ?_⟩, fun hf => hf.valid.one⟩
    exact fun b hm hb hname => hany (h.any_name_iff.mpr ⟨b, hm, hb, hname⟩)

theorem add {d' : Definition} {more : List (Severity × Problem)}
    (hp : d'.properties = d.properties ++ if FirstOfName before c then [c.given] else [])
    (ha : d'.constructorArgs = d.constructorArgs ++ if c.ValidArgument then [c.given] else [])
    (he : more.map (fun (severity, p) => (severity, p.element)) =
      if LeftOut before c then [(.error, some c)] else []) :
    Collects (before ++ [c]) d' (problems ++ more) := by
  apply of_lists
  · rw [hp, h.properties, pick_concat, List.map_append, List.nil_append]
    split <;> rfl
  · rw [ha, h.constructorArgs, List.filter_append, List.map_append]
    by_cases hc : c.ValidArgument <;> simp [hc]
  · rw [List.map_append, h.errors, he, pick_concat, List.map_append, List.nil_append]
    split <;> rfl

theorem pass {d' : Definition} (hp : ¬ c.IsProperty) (ha : ¬ c.IsArgument)
    (hproperties : d'.properties = d.properties) (harguments : d'.constructorArgs = d.constructorArgs) :
    Collects (before ++ [c]) d' (problems ++ []) := by
  refine h.add ?_ ?_ ?_
  · rw [if_neg fun hfirst => hp hfirst.valid.isProperty, List.append_nil, hproperties]
  · rw [if_neg fun hvalid => ha hvalid.isArgument, List.append_nil, harguments]
  · rw [if_neg fun hout => hout.elim (fun hout => hp hout.1) fun hout => ha hout.1]
    rfl

end Collects

end

namespace Reading

def Yields {α : Type} (act : Reading α) (P : α → List (Severity × Problem) → Prop) : Prop :=
  ∀ s a t, act s = (.ok a, t) → ∃ journal, s.Entered journal t ∧ P a (problemsIn journal)

namespace Yields

variable {α β : Type} {act : Reading α} {P Q : α → List (Severity × Problem) → Prop}

theorem mono (h : Yields act P) (hPQ : ∀ a problems, P a problems → Q a problems) : Yields act Q := by
  intro s a t hact
  obtain ⟨journal, hj, hP⟩ := h s a t hact
  exact ⟨journal, hj, hPQ a _ hP⟩

theorem pure {a : α} (h : P a []) : Yields (pure a) P := by
  rintro s b t ⟨⟩
  exact ⟨[], .refl s, h⟩

theorem bind {next : α → Reading β} {R : β → List (Severity × Problem) → Prop} (ha : Yields act P)
    (hn : ∀ a first, P a first → Yields (next a) fun b rest => R b (first ++ rest)) :
    Yields (act >>= next) R := by
  intro s b u h
  rcases hact : act s with ⟨f | a, t⟩
  · rw [bind_error next hact] at h
    cases h
  · rw [bind_ok next hact] at h
    obtain ⟨first, hfirst, hP⟩ := ha s a t hact
    obtain ⟨rest, hrest, hR⟩ := hn a _ hP t b u h
    refine ⟨first ++ rest, hfirst.trans hrest, ?_⟩
    rw [problemsIn_append]
    exact hR

theorem after {next : α → Reading β} {R : β → List (Severity × Problem) → Prop}
    (ha : Yields act fun _ problems => problems = []) (hn : ∀ a, Yields (next a) R) :
    Yields (act >>= next) R := by
  refine ha.bind fun a first hfirst => ?_
  subst hfirst
  exact hn a

theorem get : Yields (get : Reading Session) fun _ problems => problems = [] := by
  rintro s a t ⟨⟩
  exact ⟨[], .refl s, rfl⟩

theorem modify {g : Session → Session} (hg : ∀ s, (g s).entries = s.entries) :
    Yields (modify g : Reading Unit) fun _ problems => problems = [] := by
  rintro s a t ⟨⟩
  exact ⟨[], hg s, rfl⟩

theorem enter (entry : JournalEntry) :
    Yields (enter entry) fun _ problems => problems = problemsIn [entry] := by
  rintro s a t ⟨⟩
  exact ⟨[entry], rfl, rfl⟩

theorem remark (r : Remark) : Yields (remark r) fun _ problems => problems = [] := enter (.remark r)

theorem throw (f : Failure) : Yields (throw f : Reading α) P := by
  rintro s a t ⟨⟩

theorem error (ctx : Context) (fault : Fault) (e : Element) :
    Yields (ctx.error fault e) fun _ problems => problems = [(.error, ctx.problem fault e)] := by
  refine (enter _).bind fun _ first hfirst => ?_
  subst hfirst
  cases ctx.reporter with
  | collecting => exact (remark _).mono fun _ _ hrest => by rw [hrest]; rfl
  | failFast => exact .throw _
  | unable => exact .throw _

end Yields

end Reading

open Reading

namespace Scope

variable (scope : Scope)

theorem keep_yields {e : Element} {parsed : Except Fault PropertyValue} {kept : Prop}
    {value : PropertyValue} (hparsed : ∀ v, parsed = .ok v ↔ kept ∧ v = value)
    (store : PropertyValue → Definition) (d : Definition) :
    Yields (scope.keep e parsed store d) fun d' problems =>
      (kept ∧ d' = store value ∧ problems = []) ∨
        ¬ kept ∧ d' = d ∧ ∃ fault, problems = [(.error, scope.context.problem fault e)] := by
  cases parsed with
  | ok v =>
    obtain ⟨hkept, rfl⟩ := (hparsed v).mp rfl
    exact .pure (.inl ⟨hkept, rfl, rfl⟩)
  | error fault =>
    have hleft : ¬ kept := by
      intro hkept
      cases (hparsed value).mpr ⟨hkept, rfl⟩
    refine (Yields.error scope.context fault e).bind fun _ first hfirst => .pure (.inr ?_)
    exact ⟨hleft, rfl, fault, by rw [hfirst, List.append_nil]⟩

section

variable {scope} {before : List Element} {d : Definition} {problems : List (Severity × Problem)}

theorem property_yields {c : Element} (h : Collects before d problems) (hc : c.IsProperty) :
    Yields (scope.keep c (property d.properties c)
        (fun v => { d with properties := d.properties ++ [v] }) d)
      fun d' more => Collects (before ++ [c]) d' (problems ++ more) := by
  have hargument : ¬ c.ValidArgument := not_validArgument_of_isProperty hc
  refine (scope.keep_yields (fun _ => h.property_eq_ok_iff hc) _ d).mono ?_
  rintro _ _ (⟨hfirst, rfl, rfl⟩ | ⟨hfirst, rfl, fault, rfl⟩)
  all_goals
    apply h.add <;> simp [hfirst, hargument, leftOut_property_iff hc, Context.problem]

theorem argument_yields {c : Element} (h : Collects before d problems) (hc : c.IsArgument) :
    Yields (scope.keep c (argument c)
        (fun v => { d with constructorArgs := d.constructorArgs ++ [v] }) d)
      fun d' more => Collects (before ++ [c]) d' (problems ++ more) := by
  have hproperty : ¬ FirstOfName before c := not_firstOfName_of_isArgument hc
  have hvalid : c.ValidArgument ↔ c.GivesOne := ⟨fun h => h.one, fun h => ⟨hc, h⟩⟩
  refine (scope.keep_yields (fun _ => argument_eq_ok_iff) _ d).mono ?_
  rintro _ _ (⟨hone, rfl, rfl⟩ | ⟨hone, rfl, fault, rfl⟩)
  all_goals
    apply h.add <;> simp [hone, hvalid, hproperty, leftOut_argument_iff hc, Context.problem]

theorem addChild_yields (h : Collects before d problems) (c : Element) :
    Yields (scope.addChild d c) fun d' more => Collects (before ++ [c]) d' (problems ++ more) := by
  unfold addChild
  split
  next hforeign =>
    have hnone {tag : String} : ¬ (c.isDefault = true ∧ c.tag = tag) := by
      rintro ⟨hd, -⟩
      simp [hd] at hforeign
    exact .pure (h.pass hnone hnone rfl rfl)
  next hdefault =>
    have hd : c.isDefault = true := by simpa using hdefault
    split
    next hdescription =>
      have hother {tag : String} (ht : "description" ≠ tag) : ¬ (c.isDefault = true ∧ c.tag = tag) :=
        fun hc => ht (hdescription.symm.trans hc.2)
      exact .pure (h.pass (hother (by decide)) (hother (by decide)) rfl rfl)
    split
    next hp => exact property_yields h ⟨hd, hp⟩
    next hp =>
      split
      next ha => exact argument_yields h ⟨hd, ha⟩
      next ha => exact .pure (h.pass (fun hc => hp hc.2) (fun hc => ha hc.2) rfl rfl)

theorem addChildren_yields (h : Collects before d problems) (children : List Element) :
    Yields (children.foldlM scope.addChild d) fun d' more =>
      Collects (before ++ children) d' (problems ++ more) := by
  -- the children looked at so far grow by one with each step
  induction children generalizing before d problems with
  | nil =>
    refine .pure ?_
    rwa [List.append_nil, List.append_nil]
  | cons c children ih =>
    rw [List.foldlM_cons]
    refine (addChild_yields h c).bind fun d' first hfirst => ?_
    refine (ih hfirst).mono fun d'' rest hrest => ?_
    rwa [List.append_assoc, List.append_assoc] at hrest

end

theorem attributesOf_collects {e : Element} {className : Option String} {name : String}
    {d : Definition} (h : scope.attributesOf e className name = .ok d) : Collects [] d [] := by
  unfold attributesOf at h
  dsimp only at h
  split at h
  · cases h
  split at h
  · cases h
  · cases h
    exact ⟨rfl, rfl, rfl, List.nodup_nil, fun v hv => absurd hv List.not_mem_nil⟩

theorem takeNames_yields (names : List String) (e : Element) :
    Yields (scope.takeNames names e) fun taken problems => taken = true → problems = [] := by
  refine Yields.get.after fun s => ?_
  dsimp only
  cases (names.filter (· ≠ "")).find? (s.usedNames.contains ·) with
  | some name => exact (Yields.error _ _ _).bind fun _ _ _ => .pure nofun
  | none =>
    have hmodify := Yields.modify (g := fun s => { s with
      usedNames := names.filter (· ≠ "") ++ s.usedNames }) fun _ => rfl
    exact hmodify.after fun _ => .pure fun _ => rfl

theorem namesOf_yields (e : Element) : Yields (namesOf e) fun _ problems => problems = [] := by
  unfold namesOf
  dsimp only
  split
  · exact (Yields.remark _).after fun _ => .pure rfl
  · exact .pure rfl

theorem parseNamed_yields (e : Element) (name : String) (aliases : List String) :
    Yields (scope.parseNamed e name aliases) fun parsed problems =>
      ∀ holder ∈ parsed, Collects e.children holder.definition problems := by
  refine (scope.takeNames_yields (name :: aliases) e).bind fun taken first hfirst => ?_
  cases taken with
  | false => exact .pure nofun
  | true =>
    obtain rfl := hfirst rfl
    dsimp only [Bool.not_true, Bool.false_eq_true, if_false, List.nil_append]
    unfold parseDefinition
    cases ha : scope.attributesOf e (e.attr? "class") name with
    | error fault => exact (Yields.error _ _ _).bind fun _ _ _ => .pure nofun
    | ok d =>
      refine (addChildren_yields (scope.attributesOf_collects ha) e.children).bind
        fun d' problems hcollects => ?_
      refine Yields.get.after fun s => .pure ?_
      rintro holder ⟨⟩
      rwa [List.append_nil]

theorem parseBean_yields (e : Element) :
    Yields (scope.parseBean e) fun parsed problems =>
      ∀ holder ∈ parsed, Collects e.children holder.definition problems := by
  rw [parseBean_eq]
  refine (namesOf_yields e).after fun (name, aliases) => ?_
  dsimp only
  split
  · exact (Yields.error _ _ _).bind fun _ _ _ => .pure nofun
  · exact scope.parseNamed_yields e _ _

variable {scope} in
/-- A bean keeps the first valid property of each name and every valid argument, and of the other
properties and arguments each causes one error. -/
theorem parseBean_collects {e : Element} {holder : Holder} {s t : Session}
    (h : scope.parseBean e s = (.ok (some holder), t)) :
    ∃ journal, s.Entered journal t ∧ Collects e.children holder.definition (problemsIn journal) := by
  obtain ⟨journal, hj, hcollects⟩ := scope.parseBean_yields e s _ t h
  exact ⟨journal, hj, hcollects holder rfl⟩

end Scope

def bareElement (tag : String) (attributes : Table String) : Element := ⟨tag, none, attributes, [], none⟩

def crowdedBean : Element where
  tag := "bean"
  uri := none
  attributes := [("id", "a"), ("class", "A")]
  contents :=
    [.text " ", .element (bareElement "property" [("name", "x")]),
      .element ⟨"property", some "urn:other", [("name", "x"), ("value", "0")], [], none⟩,
      .element (bareElement "description" []),
      .element (bareElement "property" [("name", "x"), ("value", "1")]),
      .element (bareElement "constructor-arg" [("ref", "")]),
      .element (bareElement "property" [("name", "x"), ("ref", "b")]),
      .element (bareElement "constructor-arg" [("ref", "b")])]
  line := some 1

theorem crowdedBean_collects : ∃ holder t journal,
    topScope.parseBean crowdedBean {} = (.ok (some holder), t) ∧
      holder.definition.properties = [⟨some "x", .value "1"⟩] ∧
      holder.definition.constructorArgs = [⟨none, .ref "b"⟩] ∧
      Session.Entered {} journal t ∧
      Collects crowdedBean.children holder.definition (problemsIn journal) := by
  have hvalues : (topScope.parseBean crowdedBean {}).1.toOption.map
      (Option.map fun holder => (holder.definition.properties, holder.definition.constructorArgs)) =
        some (some ([⟨some "x", .value "1"⟩], [⟨none, .ref "b"⟩])) := by
    decide +kernel
  rcases hparse : topScope.parseBean crowdedBean {} with ⟨f | parsed, t⟩
  · rw [hparse] at hvalues
    cases hvalues
  · rw [hparse] at hvalues
    obtain ⟨holder, rfl, hpair⟩ := Option.map_eq_some_iff.mp (Option.some.inj hvalues)
    obtain ⟨hproperties, harguments⟩ := Prod.mk.inj hpair
    obtain ⟨journal, hj, hcollects⟩ := Scope.parseBean_collects hparse
    exact ⟨holder, t, journal, rfl, hproperties, harguments, hj, hcollects⟩

end BeanCatalog
