import BeanCatalog.Proofs.Reading.Walk
import BeanCatalog.Proofs.Resource.Faults
import BeanCatalog.Reading.Loader

namespace BeanCatalog

def LocationKind.of (location : String) : LocationKind :=
  if Location.isAbsolute location then .absolute else .relative

/-- The resources that a location names in a document at `r`. A relative one names what lies beside
`r`, and where nothing does it is taken relative to the URL of `r`. -/
def Resource.named (w : Workspace) (r : Resource) (location : String) :
    LocationKind → Except Failure (List Resource)
  | .absolute => Location.resources w location
  | .relative => do
    let q ← r.sibling location
    if ← q.present w then pure [q]
    else Location.resources w (applyRelativePath (← r.url) location)

theorem named_error {w : Workspace} {r : Resource} {location : String} {kind : LocationKind}
    {f : Failure} (h : r.named w location kind = .error f) :
    (kind = .relative ∧ f.kind.isSystem = true) ∨
      ∃ place, Location.resources w place = .error f := by
  cases kind with
  | absolute => exact .inr ⟨location, h⟩
  | relative =>
    rcases bind_eq_error h with h | ⟨q, hq, h⟩
    · rw [sibling_error h]
      exact .inl ⟨rfl, rfl⟩
    rcases bind_eq_error h with h | ⟨there, -, h⟩
    · rcases present_error h with rfl | ⟨-, hu⟩
      · exact .inl ⟨rfl, rfl⟩
      · exact absurd hu (sibling_ne_unknown hq)
    cases there with
    | true => cases h
    | false =>
      rcases bind_eq_error h with h | ⟨url, -, h⟩
      · rw [url_error h]
        exact .inl ⟨rfl, rfl⟩
      · exact .inr ⟨_, h⟩

theorem named_ok {w : Workspace} {r q : Resource} {location : String} {kind : LocationKind}
    {qs : List Resource} (h : r.named w location kind = .ok qs) (hq : q ∈ qs) :
    r.sibling location = .ok q ∨ ∃ place, Location.resources w place = .ok qs ∧
      (kind = .absolute ∧ place = location ∨
        ∃ url, r.url = .ok url ∧ place = applyRelativePath url location) := by
  cases kind with
  | absolute => exact .inr ⟨location, h, .inl ⟨rfl, rfl⟩⟩
  | relative =>
    obtain ⟨p, hp, h⟩ := bind_eq_ok h
    obtain ⟨there, -, h⟩ := bind_eq_ok h
    cases there with
    | true =>
      cases h
      rw [List.mem_singleton.mp hq]
      exact .inl hp
    | false =>
      obtain ⟨url, hu, h⟩ := bind_eq_ok h
      exact .inr ⟨_, h, .inr ⟨url, hu, rfl⟩⟩

def LocationKind.contains (kind : LocationKind) (f : Failure) : Bool :=
  f.kind.isStore || kind = .relative && f.kind.isSystem

def LocationKind.fault (kind : LocationKind) (location : String) (f : Failure) : Fault :=
  if kind = .relative ∧ f.kind.isSystem then .unresolvedBase else .importFailed kind location

namespace Context

variable (ctx : Context)

def loadNamed (location : String) : LocationKind → StateM Session LoadOutcome
  | .absolute => ctx.loadLocation location
  | .relative => ctx.loadBeside location

def endImport (e : Element) (location : String) (outcome : LoadOutcome) : Reading Unit := do
  ctx.concludeImport e (.of location) location outcome
  ctx.fire (.imported location outcome.2 (ctx.source e))

variable {e : Element} {location : String} {s t : Session} {outcome : LoadOutcome} {f : Failure}

theorem importElement_placeholder {err : PlaceholderError}
    (hb : Text.allBlank (e.attr "resource") = false)
    (hl : ctx.environment.resolveRequired (e.attr "resource") = .error err) :
    ctx.importElement e = throw (.placeholder err) := by
  unfold importElement
  simp only [hb, hl, Bool.false_eq_true, if_false]

theorem importElement_load (hb : Text.allBlank (e.attr "resource") = false)
    (hl : ctx.environment.resolveRequired (e.attr "resource") = .ok location) :
    ctx.importElement e =
      (liftM (ctx.loadNamed location (.of location)) >>= ctx.endImport e location) := by
  unfold importElement endImport LocationKind.of
  simp only [hb, hl, Bool.false_eq_true, if_false]
  cases Location.isAbsolute location <;> rfl

theorem importElement_apply (hb : Text.allBlank (e.attr "resource") = false)
    (hl : ctx.environment.resolveRequired (e.attr "resource") = .ok location)
    (ho : ctx.loadNamed location (.of location) s = (outcome, t)) :
    ctx.importElement e s = ctx.endImport e location outcome t := by
  rw [importElement_load ctx hb hl]
  apply Reading.bind_ok
  exact congrArg (fun p : LoadOutcome × Session => ((.ok p.1 : Except Failure LoadOutcome), p.2)) ho

theorem importElement_cases (e : Element) (s : Session) :
    Text.allBlank (e.attr "resource") = true ∧ ctx.importElement e = ctx.error .emptyLocation e ∨
      Text.allBlank (e.attr "resource") = false ∧
      ((∃ err, ctx.environment.resolveRequired (e.attr "resource") = .error err ∧
        ctx.importElement e = throw (.placeholder err)) ∨
      ∃ location o loaded t, ctx.environment.resolveRequired (e.attr "resource") = .ok location ∧
        ctx.loadNamed location (.of location) s = ((o, loaded), t) ∧
        ctx.importElement e s = ctx.endImport e location (o, loaded) t) := by
  by_cases hb : Text.allBlank (e.attr "resource") = true
  · exact .inl ⟨hb, importElement_blank ctx hb⟩
  rw [Bool.not_eq_true] at hb
  refine .inr ⟨hb, ?_⟩
  cases hl : ctx.environment.resolveRequired (e.attr "resource") with
  | error err => exact .inl ⟨err, rfl, importElement_placeholder ctx hb hl⟩
  | ok location =>
    rcases ho : ctx.loadNamed location (.of location) s with ⟨⟨o, loaded⟩, t⟩
    exact .inr ⟨location, o, loaded, t, rfl, ho, importElement_apply ctx hb hl ho⟩

variable {ctx}

theorem endImport_ok (count : Nat) (loaded : List Resource) :
    Reading.Quiet ctx.reporter (ctx.endImport e location (.ok count, loaded)) := by
  refine .bind (.bind (.remark _) fun _ => ?_) fun _ => fire_quiet _
  exact .ite loaded.isEmpty (warning_quiet _ _) (.pure _)

theorem endImport_contained {loaded : List Resource}
    (hc : (LocationKind.of location).contains f = true) :
    ctx.endImport e location (.error f, loaded) = (do
      ctx.error ((LocationKind.of location).fault location f) e (some f)
      ctx.fire (.imported location loaded (ctx.source e))) := by
  unfold endImport concludeImport LocationKind.fault
  by_cases hs : LocationKind.of location = .relative ∧ f.kind.isSystem = true
  · simp only [hs, and_self, if_true]
  · have hstore : f.kind.isStore = true := by
      rw [LocationKind.contains, Bool.or_eq_true, Bool.and_eq_true, decide_eq_true_iff] at hc
      exact hc.resolve_right hs
    simp only [hs, hstore, if_true, if_false]

theorem endImport_quiet {loaded : List Resource}
    (hc : (LocationKind.of location).contains f = true) :
    Reading.Quiet ctx.reporter (ctx.endImport e location (.error f, loaded)) := by
  rw [endImport_contained hc]
  exact .bind (error_quiet _ _ _) fun _ => fire_quiet _

theorem endImport_escapes {loaded : List Resource}
    (hc : (LocationKind.of location).contains f = false) :
    ctx.endImport e location (.error f, loaded) = throw f := by
  rw [LocationKind.contains, Bool.or_eq_false_iff, Bool.and_eq_false_iff, decide_eq_false_iff_not]
    at hc
  obtain ⟨hstore, hs⟩ := hc
  have hsystem : ¬ (LocationKind.of location = .relative ∧ f.kind.isSystem = true) := by
    rintro ⟨hr, hf⟩
    rcases hs with hs | hs
    · exact hs hr
    · rw [hf] at hs
      cases hs
  unfold endImport concludeImport
  simp only [hsystem, hstore, Bool.false_eq_true, if_false]
  rfl

theorem loadNamed_present {q : Resource} (hs : ctx.resource.sibling location = .ok q)
    (hp : q.present ctx.workspace = .ok true) (importer : Importer) (s : Session) :
    (ctx.via (some importer)).loadNamed location .relative s =
      (((importer.loadResource q s).1, if (importer.loadResource q s).1.toBool then [q] else []),
        (importer.loadResource q s).2) := by
  simp only [loadNamed, loadBeside, via, hs, hp, bind, Except.bind, if_true, pure, Except.pure,
    loadResource, requireImporter]
  rcases ho : importer.loadResource q s with ⟨f | count, t⟩
  all_goals
    simp only [StateT.bind, ExceptT.run, ho]
    rfl

variable (ctx) in
theorem loadNamed_cases (location : String) (kind : LocationKind) :
    (∃ place, ctx.resource.named ctx.workspace location kind =
        Location.resources ctx.workspace place ∧ ∀ importer,
      (ctx.via (some importer)).loadNamed location kind = importer.loadLocation place []) ∨
    (∃ q, ctx.resource.named ctx.workspace location kind = .ok [q] ∧ ∀ importer s,
      (ctx.via (some importer)).loadNamed location kind s =
        (((importer.loadResource q s).1, if (importer.loadResource q s).1.toBool then [q] else []),
          (importer.loadResource q s).2)) ∨
    ∃ f, ctx.resource.named ctx.workspace location kind = .error f ∧
      (kind = .relative ∧ f.kind.isSystem = true) ∧ ∀ importer,
      (ctx.via (some importer)).loadNamed location kind = pure (.error f, []) := by
  cases kind with
  | absolute => exact .inl ⟨location, rfl, fun importer => rfl⟩
  | relative =>
    cases hs : ctx.resource.sibling location with
    | error f =>
      simp only [loadNamed, loadBeside, Resource.named, via, hs]
      refine .inr (.inr ⟨f, rfl, ⟨trivial, ?_⟩, fun importer => rfl⟩)
      rw [sibling_error hs]
      rfl
    | ok q =>
      cases hp : q.present ctx.workspace with
      | error f =>
        simp only [loadNamed, loadBeside, Resource.named, via, hs, bind, Except.bind, hp]
        refine .inr (.inr ⟨f, rfl, ⟨trivial, ?_⟩, fun importer => rfl⟩)
        rcases present_error hp with rfl | ⟨-, hu⟩
        · rfl
        · exact absurd hu (sibling_ne_unknown hs)
      | ok there =>
        cases there with
        | true =>
          refine .inr (.inl ⟨q, ?_, loadNamed_present hs hp⟩)
          simp only [Resource.named, hs, bind, Except.bind, hp]
          rfl
        | false =>
          simp only [loadNamed, loadBeside, Resource.named, via, hs, bind, Except.bind, hp]
          cases hu : ctx.resource.url with
          | error f =>
            refine .inr (.inr ⟨f, rfl, ⟨trivial, ?_⟩, fun importer => rfl⟩)
            rw [url_error hu]
            rfl
          | ok url => exact .inl ⟨applyRelativePath url location, rfl, fun importer => rfl⟩

end Context

namespace Loader

variable {l : Loader}

variable (l) in
theorem loadNamed_cases (importer : Importer) (r : Resource) (location : String)
    (kind : LocationKind) :
    (∃ place, r.named l.workspace location kind = Location.resources l.workspace place ∧
      (l.context importer r).loadNamed location kind = importer.loadLocation place []) ∨
    (∃ q, r.named l.workspace location kind = .ok [q] ∧ ∀ s,
      (l.context importer r).loadNamed location kind s =
        (((importer.loadResource q s).1, if (importer.loadResource q s).1.toBool then [q] else []),
          (importer.loadResource q s).2)) ∨
    ∃ f, r.named l.workspace location kind = .error f ∧
      (kind = .relative ∧ f.kind.isSystem = true) ∧
      (l.context importer r).loadNamed location kind = pure (.error f, []) := by
  rcases Context.loadNamed_cases (l.context importer r) location kind with
    ⟨place, hn, hl⟩ | ⟨q, hn, hl⟩ | ⟨f, hn, hf, hl⟩
  · exact .inl ⟨place, hn, hl importer⟩
  · exact .inr (.inl ⟨q, hn, hl importer⟩)
  · exact .inr (.inr ⟨f, hn, hf, hl importer⟩)

theorem loadResource_apply (importer : Importer) (r : Resource) (s : Session) :
    l.loadResource importer r s =
      if s.loading.any (Resource.same r) then (.error (.cyclic r.description), s)
      else
        match r.present l.workspace with
        | .error f => (.error f, s)
        | .ok false => (.error (.absent r.description), s)
        | .ok true =>
          Reading.whileLoading r (l.readResource importer r)
            { s with entries := .remark (.loading r.description) :: s.entries } := by
  unfold loadResource
  have hget : (get : Reading Session) s = (.ok s, s) := rfl
  rw [Reading.bind_ok _ hget]
  cases hc : s.loading.any (Resource.same r) with
  | true => rfl
  | false =>
    cases hp : r.present l.workspace with
    | error f => rfl
    | ok there => cases there <;> rfl

theorem whileLoading_apply {r : Resource} {act : Reading Nat} {s u : Session} {o : Except Failure Nat}
    (h : act { s with loading := r :: s.loading, entries := .began r :: s.entries } = (o, u)) :
    Reading.whileLoading r act s =
      (o, { u with
        loading := u.loading.filter fun q => !Resource.same r q
        entries := .ended r o.toBool :: u.entries }) := by
  unfold Reading.whileLoading
  rw [h]

end Loader

end BeanCatalog
