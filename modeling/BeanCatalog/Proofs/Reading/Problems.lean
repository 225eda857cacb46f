import BeanCatalog.Proofs.Reading.Walk

namespace BeanCatalog

def Context.problem (ctx : Context) (fault : Fault) (e : Element) (cause : Option Failure := none) :
    Problem :=
  ⟨fault, some e, cause, some ctx.resource.description⟩

namespace Reading

variable {α β : Type} {p : Problem} {s t : Session}

def Reports (p : Problem) (act : Reading α) (s : Session) : Prop :=
  ∃ a t, act s = (.ok a, t) ∧ .problem .error p ∈ t.entries

theorem Quiet.ends {act : Reading α} (ha : Quiet .collecting act) (s : Session) :
    ∃ a t, act s = (.ok a, t) ∧ s.entries ⊆ t.entries := by
  obtain ⟨-, -, he, hf⟩ := ha s
  rcases h : act s with ⟨f | a, t⟩
  · rw [h] at hf
    exact absurd (hf f rfl) id
  · rw [h] at he
    exact ⟨a, t, rfl, he⟩

namespace Reports

theorem of_eq {act act' : Reading α} (h : act s = act' t) (hr : Reports p act' t) :
    Reports p act s := by
  rw [Reports, h]
  exact hr

theorem after {act : Reading α} {a : α} {next : α → Reading β} (ha : act s = (.ok a, t))
    (hn : Reports p (next a) t) : Reports p (act >>= next) s := by
  obtain ⟨b, u, hb, hp⟩ := hn
  refine ⟨b, u, ?_, hp⟩
  rw [bind_ok next ha]
  exact hb

theorem following {act : Reading α} {next : α → Reading β} (ha : Quiet .collecting act)
    (hn : ∀ a t, Reports p (next a) t) : Reports p (act >>= next) s := by
  obtain ⟨a, t, h, -⟩ := ha.ends s
  exact after h (hn a t)

theorem followed {act : Reading α} {next : α → Reading β} (h : Reports p act s)
    (hn : ∀ a, Quiet .collecting (next a)) : Reports p (act >>= next) s := by
  obtain ⟨a, t, ha, hp⟩ := h
  obtain ⟨b, u, hb, hsub⟩ := (hn a).ends t
  refine ⟨b, u, ?_, hsub hp⟩
  rw [bind_ok next ha]
  exact hb

end Reports

end Reading

open Reading

variable {ctx : Context} {scope : Scope} {reader : DocumentReader} {e : Element} {p : Problem}
  {s t : Session}

theorem error_reports (hr : ctx.reporter = .collecting) (fault : Fault) (e : Element)
    (cause : Option Failure) : Reports (ctx.problem fault e cause) (ctx.error fault e cause) s := by
  unfold Context.error Context.report
  rw [hr]
  refine ⟨(), _, rfl, ?_⟩
  exact List.mem_cons_of_mem _ List.mem_cons_self

inductive AliasFaulty (ctx : Context) (e : Element) (s : Session) : Problem → Prop
  | noName (hn : Text.allBlank (e.attr "name") = true) :
      AliasFaulty ctx e s (ctx.problem .emptyName e)
  | noAlias (ha : Text.allBlank (e.attr "alias") = true) :
      AliasFaulty ctx e s (ctx.problem .emptyAlias e)
  | refused {refusal : Refusal} (hn : Text.allBlank (e.attr "name") = false)
      (ha : Text.allBlank (e.attr "alias") = false)
      (hc : s.registry.addAlias (e.attr "name") (e.attr "alias") = .error refusal) :
      AliasFaulty ctx e s
        (ctx.problem (.aliasRefused (e.attr "name") (e.attr "alias")) e (some (.refused refusal)))

inductive ChildFaulty (d : Definition) (e : Element) : Fault → Prop
  | property {fault : Fault} (hd : e.isDefault = true) (ht : e.tag = "property")
      (hf : Scope.property d.properties e = .error fault) : ChildFaulty d e fault
  | argument {fault : Fault} (hd : e.isDefault = true) (ht : e.tag = "constructor-arg")
      (hf : Scope.argument e = .error fault) : ChildFaulty d e fault

inductive BeanFaulty (scope : Scope) (e : Element) (s : Session) : Problem → Prop
  | unnamed {aliases : List String} {t : Session} (hn : Scope.namesOf e s = (.ok ("", aliases), t))
      (hc : e.attr? "class" = none) : BeanFaulty scope e s (scope.context.problem .unnamed e)
  | nameInUse {name used : String} {aliases : List String} {t : Session}
      (hn : Scope.namesOf e s = (.ok (name, aliases), t)) (hc : name ≠ "" ∨ e.attr? "class" ≠ none)
      (hu : ((name :: aliases).filter (· ≠ "")).find? (t.usedNames.contains ·) = some used) :
      BeanFaulty scope e s (scope.context.problem (.nameInUse used) e)
  | attributes {name : String} {aliases : List String} {t u : Session} {fault : Fault}
      (hn : Scope.namesOf e s = (.ok (name, aliases), t)) (hc : name ≠ "" ∨ e.attr? "class" ≠ none)
      (hu : scope.takeNames (name :: aliases) e t = (.ok true, u))
      (hf : scope.attributesOf e (e.attr? "class") name = .error fault) :
      BeanFaulty scope e s (scope.context.problem fault e)
  | child {name : String} {aliases : List String} {t u v : Session} {d d' : Definition}
      {front back : List Element} {c : Element} {fault : Fault}
      (hn : Scope.namesOf e s = (.ok (name, aliases), t)) (hc : name ≠ "" ∨ e.attr? "class" ≠ none)
      (hu : scope.takeNames (name :: aliases) e t = (.ok true, u))
      (hd : scope.attributesOf e (e.attr? "class") name = .ok d)
      (he : e.children = front ++ c :: back)
      (hf : front.foldlM scope.addChild d u = (.ok d', v)) (hb : ChildFaulty d' c fault) :
      BeanFaulty scope e s (scope.context.problem fault c)
  | refused {holder holder' : Holder} {t u : Session} {refusal : Refusal}
      (hp : scope.parseBean e s = (.ok (some holder), t))
      (hd : scope.decorate [] e holder t = (.ok holder', u))
      (hc : (u.registry.calls (fun _ _ => false) holder'.calls).refusal = some refusal) :
      BeanFaulty scope e s
        (scope.context.problem (.definitionRefused holder'.name) e (some (.refused refusal)))

inductive ProfilesFaulty (reader : DocumentReader) (ctx : Context) (e : Element) : Problem → Prop
  | noNames (hb : Text.allBlank (e.attr "profile") = false)
      (hn : Text.tokenize (e.attr "profile") reader.delimiters = []) :
      ProfilesFaulty reader ctx e
        (ctx.problem (.invalidProfiles (e.attr "profile")) e (some (.profiles .noNames)))
  | invalid {err : ProfileError} (hb : Text.allBlank (e.attr "profile") = false)
      (hn : Text.tokenize (e.attr "profile") reader.delimiters ≠ [])
      (ha : ctx.environment.accepts (Text.tokenize (e.attr "profile") reader.delimiters) =
        .error err) :
      ProfilesFaulty reader ctx e
        (ctx.problem (.invalidProfiles (e.attr "profile")) e (some (.profiles err)))

inductive Faulty (reader : DocumentReader) (scope : Scope) (e : Element) (s : Session) :
    Problem → Prop
  | noHandler (hd : e.isDefault = false) :
      Faulty reader scope e s (scope.context.problem (.noHandler e.uri) e)
  | noLocation (hd : e.isDefault = true) (hk : e.kind = .importing)
      (hb : Text.allBlank (e.attr "resource") = true) :
      Faulty reader scope e s (scope.context.problem .emptyLocation e)
  | aliasing {p : Problem} (hd : e.isDefault = true) (hk : e.kind = .aliasing)
      (h : AliasFaulty scope.context e s p) : Faulty reader scope e s p
  | bean {p : Problem} (hd : e.isDefault = true) (hk : e.kind = .bean)
      (h : BeanFaulty scope e s p) : Faulty reader scope e s p
  | profiles {p : Problem} (hd : e.isDefault = true) (hk : e.kind = .beans)
      (h : ProfilesFaulty reader scope.context e p) : Faulty reader scope e s p

theorem register_refused {calls : List (RegistryCall Definition)} {refusal : Refusal}
    (hc : (s.registry.calls (fun _ _ => false) calls).refusal = some refusal) :
    ∃ t, Reading.register calls s = (.ok (some refusal), t) := by
  let run := s.registry.calls (fun _ _ => false) calls
  let u : Session :=
    { s with entries := .registering calls :: s.entries, registry := run.registry }
  have hremarks : Quiet .collecting (forIn run.replacements PUnit.unit fun r _ => do
      Reading.remark (.replaced r)
      pure (ForInStep.yield PUnit.unit)) := Quiet.remarks _
  obtain ⟨_, t, ht, -⟩ := hremarks.ends u
  refine ⟨t, ?_⟩
  change ((forIn run.replacements PUnit.unit fun r _ => do
      Reading.remark (.replaced r)
      pure (ForInStep.yield PUnit.unit)) >>= fun _ => pure run.refusal) u = _
  rw [bind_ok _ ht]
  exact congrArg (fun o => ((.ok o : Except Failure (Option Refusal)), t)) hc

theorem AliasFaulty.reported (hr : ctx.reporter = .collecting) (h : AliasFaulty ctx e s p) :
    Reports p (ctx.aliasElement e) s := by
  have herror : ∀ fault, Quiet .collecting (ctx.error fault e) := fun fault =>
    hr ▸ Context.error_quiet fault e none
  have hregister : Quiet .collecting (ctx.registerAlias e) := hr ▸ Context.registerAlias_quiet e
  have hnamed : Quiet .collecting (ctx.aliasNamed e) := hr ▸ Context.aliasNamed_quiet e
  rw [Context.aliasElement_eq]
  cases h with
  | noName hn =>
    rw [hn]
    exact (error_reports hr _ e none).followed fun _ => hnamed
  | noAlias ha =>
    have hreports : ∀ t, Reports (ctx.problem .emptyAlias e) (ctx.aliasNamed e) t := by
      intro t
      unfold Context.aliasNamed
      rw [ha]
      exact (error_reports hr _ e none).followed fun _ => .ite _ hregister (.pure ())
    cases Text.allBlank (e.attr "name") with
    | true => exact .following (herror _) fun _ => hreports
    | false => exact hreports s
  | @refused refusal hn ha hc =>
    rw [hn]
    change Reports _ (ctx.aliasNamed e) s
    unfold Context.aliasNamed
    rw [hn, ha]
    change Reports _ (ctx.registerAlias e) s
    have hcalls : (s.registry.calls (fun _ _ => false)
        [.addAlias (e.attr "name") (e.attr "alias")]).refusal = some refusal := by
      simp only [Registry.calls, Registry.call, hc]
    obtain ⟨t, ht⟩ := register_refused hcalls
    exact .after ht (error_reports hr _ e _)

namespace Scope

variable {name : String} {aliases : List String}

theorem parseBean_unnamed (hn : namesOf e s = (.ok ("", aliases), t)) (hc : e.attr? "class" = none) :
    scope.parseBean e s = (do
      scope.context.error .unnamed e
      pure none : Reading (Option Holder)) t := by
  rw [parseBean_eq, bind_ok _ hn]
  dsimp only
  rw [hc]
  rfl

theorem parseBean_named (hn : namesOf e s = (.ok (name, aliases), t))
    (hc : name ≠ "" ∨ e.attr? "class" ≠ none) :
    scope.parseBean e s = scope.parseNamed e name aliases t := by
  rw [parseBean_eq, bind_ok _ hn]
  dsimp only
  refine congrFun (?_ : _ = scope.parseNamed e name aliases) t
  grind

theorem addChild_reports (hr : scope.context.reporter = .collecting) {d : Definition} {c : Element}
    {fault : Fault} (h : ChildFaulty d c fault) :
    Reports (scope.context.problem fault c) (scope.addChild d c) s := by
  have hkeep : ∀ store, Reports (scope.context.problem fault c)
      (scope.keep c (.error fault) store d) s := by
    intro store
    exact (error_reports hr fault c none).followed fun _ => .pure _
  unfold addChild
  cases h with
  | property hd ht hf =>
    rw [hd, ht, hf]
    exact hkeep fun v => { d with properties := d.properties ++ [v] }
  | argument hd ht hf =>
    rw [hd, ht, hf]
    exact hkeep fun v => { d with constructorArgs := d.constructorArgs ++ [v] }

theorem takeNames_used {names : List String} {used : String}
    (hr : scope.context.reporter = .collecting)
    (hu : (names.filter (· ≠ "")).find? (s.usedNames.contains ·) = some used) :
    ∃ t, scope.takeNames names e s = (.ok false, t) ∧
      .problem .error (scope.context.problem (.nameInUse used) e) ∈ t.entries := by
  obtain ⟨_, t, ht, hp⟩ := error_reports (s := s) hr (.nameInUse used) e none
  refine ⟨t, ?_, hp⟩
  unfold takeNames
  dsimp only
  rw [bind_ok _ (show (get : Reading Session) s = (.ok s, s) from rfl), hu]
  exact bind_ok _ ht

end Scope

theorem BeanFaulty.reported (hh : reader.handlers = []) (hr : scope.context.reporter = .collecting)
    (h : BeanFaulty scope e s p) : Reports p (reader.beanElement scope e) s := by
  have hkeep : ∀ parsed, Quiet .collecting (reader.keepBean scope e parsed) := by
    intro parsed
    rw [← hr]
    exact DocumentReader.keepBean_quiet hh parsed
  have hchild : ∀ d c, Quiet .collecting (scope.addChild d c) := by
    intro d c
    rw [← hr]
    exact scope.addChild_quiet d c
  rw [DocumentReader.beanElement_eq]
  cases h with
  | unnamed hn hc =>
    refine .followed ?_ hkeep
    refine .of_eq (Scope.parseBean_unnamed hn hc) ?_
    exact (error_reports hr _ e none).followed fun _ => .pure _
  | nameInUse hn hc hu =>
    refine .followed ?_ hkeep
    refine .of_eq (Scope.parseBean_named hn hc) ?_
    obtain ⟨t, ht, hp⟩ := Scope.takeNames_used (e := e) hr hu
    exact .after ht ⟨none, t, rfl, hp⟩
  | attributes hn hc hu hf =>
    refine .followed ?_ hkeep
    refine .of_eq (Scope.parseBean_named hn hc) ?_
    refine .after hu ?_
    unfold Scope.parseDefinition
    rw [hf]
    exact (error_reports hr _ e none).followed fun _ => .pure _
  | child hn hc hu hd he hf hb =>
    refine .followed ?_ hkeep
    refine .of_eq (Scope.parseBean_named hn hc) ?_
    refine .after hu ?_
    unfold Scope.parseDefinition
    rw [hd, he]
    refine .followed ?_ fun d => .bind .get fun s => .pure _
    rw [List.foldlM_append]
    refine .after hf ?_
    rw [List.foldlM_cons]
    exact (Scope.addChild_reports hr hb).followed fun d => .foldlM hchild _ _
  | refused hp hd hc =>
    refine .after hp ?_
    unfold DocumentReader.keepBean
    rw [hh]
    refine .after hd ?_
    obtain ⟨t, ht⟩ := register_refused hc
    exact .after ht (error_reports hr _ e _)

theorem ProfilesFaulty.reported (hr : ctx.reporter = .collecting)
    (h : ProfilesFaulty reader ctx e p) :
    ∃ t, reader.profilesAccepted ctx e s = (.ok false, t) ∧ .problem .error p ∈ t.entries := by
  have herror : ∀ err, ∃ t,
      (do
        ctx.error (.invalidProfiles (e.attr "profile")) e (some (.profiles err))
        pure false : Reading Bool) s = (.ok false, t) ∧
        .problem .error (ctx.problem (.invalidProfiles (e.attr "profile")) e
          (some (.profiles err))) ∈ t.entries := by
    intro err
    obtain ⟨_, t, ht, hp⟩ := error_reports (s := s) hr (.invalidProfiles (e.attr "profile")) e
      (some (.profiles err))
    exact ⟨t, bind_ok _ ht, hp⟩
  unfold DocumentReader.profilesAccepted
  cases h with
  | noNames hb hn =>
    simp only [hb, hn, Bool.false_eq_true, if_false, List.isEmpty_nil, if_true]
    exact herror _
  | invalid hb hn ha =>
    have hsome : (Text.tokenize (e.attr "profile") reader.delimiters).isEmpty = false := by
      rw [List.isEmpty_eq_false_iff]
      exact hn
    simp only [hb, hsome, ha, Bool.false_eq_true, if_false]
    exact herror _

theorem Faulty.reported (hh : reader.handlers = []) (hr : scope.context.reporter = .collecting)
    (h : Faulty reader scope e s p) : Reports p (reader.readElement scope e) s := by
  unfold DocumentReader.readElement
  cases h with
  | noHandler hd =>
    rw [hd, hh, Scope.parseCustom_nil]
    exact ((error_reports hr _ e none).followed fun _ => .pure _).followed fun _ => .pure _
  | noLocation hd hk hb =>
    rw [hd, hk]
    change Reports _ (scope.context.importElement e) s
    rw [Context.importElement_blank _ hb]
    exact error_reports hr _ e none
  | aliasing hd hk h =>
    rw [hd, hk]
    exact h.reported hr
  | bean hd hk h =>
    rw [hd, hk]
    exact h.reported hh hr
  | profiles hd hk h =>
    rw [hd, hk]
    change Reports p (reader.readScope scope.context scope.defaults e) s
    rw [DocumentReader.readScope_eq]
    obtain ⟨t, ht, hp⟩ := h.reported (s := s) hr
    have hadmits : reader.admits scope.context e s = (.ok false, t) := by
      unfold DocumentReader.admits
      rw [if_pos hd]
      exact ht
    exact .after hadmits ⟨(), t, rfl, hp⟩

end BeanCatalog
