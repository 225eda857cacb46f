import BeanCatalog.Proofs.Loading.Import

/-!
Traces of loading: every failure that ends a load comes from an element or a resource that the load
has come to, and a load that runs out of depth has as many different resources under way as it has
depth.
-/

namespace BeanCatalog

namespace Loader

variable (l : Loader)

def Document (r : Resource) (root : Element) : Prop :=
  ∃ data, r.read l.workspace = .ok data ∧ l.parse data = .ok root

def Seeks (r : Resource) (e : Element) (kind : LocationKind)
    (sought : Except Failure (List Resource)) : Prop :=
  Text.allBlank (e.attr "resource") = false ∧
    ∃ location, l.environment.resolveRequired (e.attr "resource") = .ok location ∧
      kind = .of location ∧ r.named l.workspace location kind = sought

/-- The documents that are read when the document `root` at `r` is, with all imports followed. -/
inductive Walked (r : Resource) (root : Element) : Resource → Element → Prop
  | start : Walked r root r root
  | next {q q' : Resource} {doc doc' e : Element} {kind : LocationKind} {qs : List Resource}
      (h : Walked r root q doc) (he : doc.Imports e) (hn : l.Seeks q e kind (.ok qs))
      (hm : q' ∈ qs) (hd : l.Document q' doc') : Walked r root q' doc'

variable {l} in
theorem Walked.of_import {r r' q : Resource} {root root' doc e : Element} {kind : LocationKind}
    {qs : List Resource} (he : root.Imports e) (hn : l.Seeks r e kind (.ok qs)) (hm : r' ∈ qs)
    (hd : l.Document r' root') (h : l.Walked r' root' q doc) : l.Walked r root q doc := by
  induction h with
  | start => exact .next .start he hn hm hd
  | next _ he' hn' hm' hd' ih => exact .next ih he' hn' hm' hd'

inductive ImportFails (r : Resource) (e : Element) : Failure → Prop
  | placeholder {err : PlaceholderError} (hb : Text.allBlank (e.attr "resource") = false)
      (hl : l.environment.resolveRequired (e.attr "resource") = .error err) :
      ImportFails r e (.placeholder err)
  | unnamed {kind : LocationKind} {f : Failure} (hn : l.Seeks r e kind (.error f))
      (hc : kind.contains f = false) : ImportFails r e f
  | unseen {kind : LocationKind} {qs : List Resource} {q : Resource} {f : Failure}
      (hn : l.Seeks r e kind (.ok qs)) (hm : q ∈ qs) (hp : q.present l.workspace = .error f)
      (hc : kind.contains f = false) : ImportFails r e f

def WalkFails (r : Resource) (root : Element) (f : Failure) : Prop :=
  l.reporter.Refuses f ∨
    ∃ q doc e, l.Walked r root q doc ∧ doc.Imports e ∧ l.ImportFails q e f

def LoadFails (r : Resource) (f : Failure) : Prop :=
  f.kind.isStore = true ∨ r.present l.workspace = .error f ∨
    ∃ root, l.Document r root ∧ l.WalkFails r root f

def Stack (reached : Resource → Prop) (depth : Nat) (loading begun : List Resource) : Prop :=
  ∃ chain : List Resource, chain.length = depth ∧ chain.Nodup ∧ ∀ q ∈ chain,
    q ∈ begun ∧ q.present l.workspace = .ok true ∧ loading.any (Resource.same q) = false ∧ reached q

def Below (r q : Resource) : Prop :=
  ∃ root doc, l.Document r root ∧ l.Document q doc ∧ l.Walked r root q doc

def Undisturbed (loading begun loading' begun' : List Resource) : Prop :=
  loading' = loading ∧ begun ⊆ begun'

structure WalkFailed (depth : Nat) (r : Resource) (root : Element) (loading begun : List Resource)
    (f : Failure) (loading' begun' : List Resource) : Prop where
  undisturbed : Undisturbed loading begun loading' begun'
  failure : f = .exhausted ∨ l.WalkFails r root f
  stack : f = .exhausted →
    l.Stack (fun q => ∃ doc, l.Document q doc ∧ l.Walked r root q doc) depth loading begun'

def WalkEnds {α : Type} (depth : Nat) (r : Resource) (root : Element)
    (loading begun : List Resource) (act : Reading α) : Prop :=
  Reading.Keeps (Undisturbed loading begun) (l.WalkFailed depth r root loading begun) act

structure LoadEnds (depth : Nat) (sought : Except Failure (List Resource)) (s : Session)
    (o : Except Failure Nat) (t : Session) : Prop where
  loading : t.loading = s.loading
  begun : s.begun ⊆ t.begun
  failure {f : Failure} : o = .error f → f = .exhausted ∨ sought = .error f ∨
    ∃ rs r, sought = .ok rs ∧ r ∈ rs ∧ l.LoadFails r f
  stack : o = .error .exhausted → l.Stack (fun q => ∃ rs r, sought = .ok rs ∧ r ∈ rs ∧ l.Below r q)
    depth s.loading t.begun

structure Follows (depth : Nat) (importer : Importer) : Prop where
  location {location : String} {loaded more : List Resource} {s t : Session}
      {o : Except Failure Nat} : importer.loadLocation location loaded s = ((o, more), t) →
    l.LoadEnds depth (Location.resources l.workspace location) s o t
  resource {r : Resource} {s t : Session} {o : Except Failure Nat} :
    importer.loadResource r s = (o, t) → l.LoadEnds depth (.ok [r]) s o t

end Loader

theorem resources_ne_exhausted {w : Workspace} {location : String} :
    Location.resources w location ≠ .error .exhausted := by
  intro h
  rcases Location.resources_error h with hf | ⟨err, -, hf⟩ | hf <;> cases hf

theorem named_ne_exhausted {w : Workspace} {r : Resource} {location : String} {kind : LocationKind} :
    r.named w location kind ≠ .error .exhausted := by
  intro h
  rcases named_error h with ⟨-, hs⟩ | ⟨place, hp⟩
  · cases hs
  · exact resources_ne_exhausted hp

theorem present_ne_exhausted {w : Workspace} {r : Resource} : r.present w ≠ .error .exhausted := by
  intro h
  rcases present_error h with hf | ⟨hf, -⟩ <;> cases hf

namespace Loader

variable {l : Loader} {n : Nat} {r : Resource} {root e : Element}

theorem ImportFails.ne_exhausted : ¬ l.ImportFails r e .exhausted := by
  intro h
  cases h with
  | unnamed hn =>
    obtain ⟨-, location, -, -, hn⟩ := hn
    exact named_ne_exhausted hn
  | unseen _ _ hp => exact present_ne_exhausted hp

theorem WalkFails.ne_exhausted : ¬ l.WalkFails r root .exhausted := by
  rintro (h | ⟨q, doc, e, -, -, h⟩)
  · cases hr : l.reporter <;> rw [hr] at h <;> exact h
  · exact h.ne_exhausted

theorem WalkFails.of_load {kind : LocationKind} {qs : List Resource} {q : Resource} {f : Failure}
    (he : root.Imports e) (hn : l.Seeks r e kind (.ok qs)) (hm : q ∈ qs)
    (hc : kind.contains f = false) (h : l.LoadFails q f) : l.WalkFails r root f := by
  rcases h with hs | hp | ⟨doc, hd, hf | ⟨q', doc', e', hw, he', hf⟩⟩
  · rw [LocationKind.contains, hs] at hc
    cases hc
  · exact .inr ⟨r, root, e, .start, he, .unseen hn hm hp hc⟩
  · exact .inl hf
  · exact .inr ⟨q', doc', e', hw.of_import he hn hm hd, he', hf⟩

theorem Stack.mono {reached reached' : Resource → Prop} {loading begun : List Resource}
    (h : l.Stack reached n loading begun) (hr : ∀ q, reached q → reached' q) :
    l.Stack reached' n loading begun := by
  obtain ⟨chain, hn, hd, hc⟩ := h
  refine ⟨chain, hn, hd, fun q hq => ?_⟩
  obtain ⟨hb, hp, hl, hq⟩ := hc q hq
  exact ⟨hb, hp, hl, hr q hq⟩

theorem Stack.push {reached : Resource → Prop} {loading begun : List Resource}
    (h : l.Stack reached n (r :: loading) begun) (hb : r ∈ begun)
    (hp : r.present l.workspace = .ok true) (hl : loading.any (Resource.same r) = false)
    (hr : reached r) : l.Stack reached (n + 1) loading begun := by
  obtain ⟨chain, hn, hd, hc⟩ := h
  have hself : r.same r = true := by
    apply same_self
    rintro rfl
    cases hp
  have hnot : r ∉ chain := by
    intro hm
    obtain ⟨-, -, hq, -⟩ := hc r hm
    rw [List.any_cons, hself] at hq
    cases hq
  refine ⟨r :: chain, by simp [hn], List.nodup_cons.mpr ⟨hnot, hd⟩, fun q hq => ?_⟩
  rcases List.mem_cons.mp hq with rfl | hq
  · exact ⟨hb, hp, hl, hr⟩
  · obtain ⟨hb, hp, hl, hq⟩ := hc q hq
    rw [List.any_cons, Bool.or_eq_false_iff] at hl
    exact ⟨hb, hp, hl.2, hq⟩

theorem WalkFailed.of_refused {loading begun loading' begun' : List Resource} {f : Failure}
    (hf : l.reporter.Refuses f) (hs : Undisturbed loading begun loading' begun') :
    l.WalkFailed n r root loading begun f loading' begun' := by
  have hw : l.WalkFails r root f := .inl hf
  refine ⟨hs, .inr hw, fun he => ?_⟩
  rw [he] at hw
  exact absurd hw WalkFails.ne_exhausted

theorem Quiet.walkEnds {α : Type} {act : Reading α} {loading begun : List Resource}
    (ha : Reading.Quiet l.reporter act) : l.WalkEnds n r root loading begun act :=
  ha.keeps fun _ _ _ hf hs => .of_refused hf hs

theorem Follows.loadNamed {importer : Importer} (hi : l.Follows n importer) {location : String}
    {kind : LocationKind} {loaded : List Resource} {s t : Session} {o : Except Failure Nat}
    (h : (l.context importer r).loadNamed location kind s = ((o, loaded), t)) :
    l.LoadEnds n (r.named l.workspace location kind) s o t := by
  rcases l.loadNamed_cases importer r location kind with
    ⟨place, hn, hl⟩ | ⟨q, hn, hl⟩ | ⟨f, hn, -, hl⟩
  · rw [hl] at h
    rw [hn]
    exact hi.location h
  · rw [hl] at h
    cases h
    rw [hn]
    exact hi.resource rfl
  · rw [hl] at h
    cases h
    rw [hn]
    refine ⟨rfl, fun _ hm => hm, fun hf => ?_, fun hf => ?_⟩
    · cases hf
      exact .inr (.inl rfl)
    · cases hf
      exact absurd hn named_ne_exhausted

theorem importElement_ends {importer : Importer} (hi : l.Follows n importer)
    (he : root.Imports e) (loading begun : List Resource) :
    l.WalkEnds n r root loading begun ((l.context importer r).importElement e) := by
  intro s hs
  rcases (l.context importer r).importElement_cases e s with
    ⟨-, himport⟩ | ⟨hb, ⟨err, hr, himport⟩ | ⟨location, o, loaded, t, hr, ho, himport⟩⟩
  · rw [himport]
    exact Quiet.walkEnds (Context.error_quiet _ _ _) s hs
  · rw [himport]
    refine Reading.throw_keeps ⟨hs, .inr (.inr ⟨r, root, e, .start, he, .placeholder hb hr⟩), fun h => ?_⟩
    cases h
  · rw [himport]
    have hends := hi.loadNamed ho
    have hseeks : l.Seeks r e (.of location) (r.named l.workspace location (.of location)) :=
      ⟨hb, location, hr, rfl, rfl⟩
    have ht : Undisturbed loading begun t.loading t.begun :=
      ⟨hends.loading.trans hs.1, List.Subset.trans hs.2 hends.begun⟩
    cases o with
    | ok count => exact Quiet.walkEnds (Context.endImport_ok _ _) t ht
    | error f =>
      by_cases hc : (LocationKind.of location).contains f = true
      · exact Quiet.walkEnds (Context.endImport_quiet hc) t ht
      · rw [Bool.not_eq_true] at hc
        rw [Context.endImport_escapes hc]
        refine Reading.throw_keeps ⟨ht, ?_, fun hf => ?_⟩
        · rcases hends.failure rfl with hf | hf | ⟨rs, q, hrs, hq, hf⟩
          · exact .inl hf
          · rw [hf] at hseeks
            exact .inr (.inr ⟨r, root, e, .start, he, .unnamed hseeks hc⟩)
          · rw [hrs] at hseeks
            exact .inr (.of_load he hseeks hq hc hf)
        · subst hf
          have hstack := hends.stack rfl
          rw [hs.1] at hstack
          refine hstack.mono ?_
          rintro q ⟨rs, r', hrs, hr', root', doc, hroot, hdoc, hw⟩
          rw [hrs] at hseeks
          exact ⟨doc, hdoc, hw.of_import he hseeks hr' hroot⟩

theorem steps_end (importer : Importer) (loading begun : List Resource) :
    StepRelation (l.context importer r) (l.context importer r) fun _ act _ =>
      l.WalkEnds n r root loading begun act :=
  Reading.keeps_steps (some importer) fun _ _ _ hf hs => .of_refused hf hs

theorem registerDocument_ends (hh : l.documents.handlers = []) {importer : Importer}
    (hi : l.Follows n importer) (loading begun : List Resource) :
    l.WalkEnds n r root loading begun (l.registerDocument importer root r) := by
  have hread : l.WalkEnds n r root loading begun
      (l.documents.read (l.context importer r) root) :=
    (steps_end importer loading begun).readScope (.of_nil hh) [] root fun e he =>
      importElement_ends hi he loading begun
  refine Reading.Keeps.bind (Quiet.walkEnds .get) fun before => ?_
  refine Reading.Keeps.bind hread fun _ => ?_
  exact Reading.Keeps.bind (Quiet.walkEnds .get) fun after => Quiet.walkEnds (.pure _)

theorem readResource_ends (hh : l.documents.handlers = []) {importer : Importer}
    (hi : l.Follows n importer) (hp : r.present l.workspace = .ok true) {s t : Session}
    {o : Except Failure Nat} (h : l.readResource importer r s = (o, t)) :
    Undisturbed s.loading s.begun t.loading t.begun ∧
      (∀ f, o = .error f → f = .exhausted ∨ l.LoadFails r f) ∧
      (o = .error .exhausted → l.Stack (l.Below r) n s.loading t.begun ∧ l.Below r r) := by
  unfold readResource at h
  cases hr : r.read l.workspace with
  | error f =>
    have hf := read_error hp hr
    rw [hr] at h
    simp only [hf, if_true] at h
    cases h
    refine ⟨⟨rfl, fun _ hm => hm⟩, fun f hf => ?_, fun hf => ?_⟩
    · cases hf
      exact .inr (.inl rfl)
    · cases hf
  | ok data =>
    rw [hr] at h
    dsimp only at h
    cases hx : l.parse data with
    | error line =>
      rw [hx] at h
      cases h
      refine ⟨⟨rfl, fun _ hm => hm⟩, fun f hf => ?_, fun hf => ?_⟩
      · cases hf
        exact .inr (.inl rfl)
      · cases hf
    | ok root =>
      rw [hx] at h
      dsimp only at h
      have hd : l.Document r root := ⟨data, hr, hx⟩
      obtain ⟨hok, herror⟩ := registerDocument_ends hh hi s.loading s.begun
        s ⟨rfl, fun _ hm => hm⟩
      cases o with
      | ok count =>
        refine ⟨hok count t h, fun f hf => ?_, fun hf => ?_⟩
        · cases hf
        · cases hf
      | error f =>
        obtain ⟨hu, hf, hs⟩ := herror f t h
        refine ⟨hu, fun g hg => ?_, fun hg => ?_⟩
        · cases hg
          exact hf.imp_right fun hf => .inr (.inr ⟨root, hd, hf⟩)
        · cases hg
          refine ⟨(hs rfl).mono ?_, root, root, hd, hd, .start⟩
          rintro q ⟨doc, hdoc, hw⟩
          exact ⟨root, doc, hd, hdoc, hw⟩

theorem filter_same {loading : List Resource} (hr : r ≠ .unknown)
    (hl : loading.any (Resource.same r) = false) :
    ((r :: loading).filter fun q => !Resource.same r q) = loading := by
  rw [List.filter_cons, same_self hr]
  apply List.filter_eq_self.mpr
  intro q hq
  rw [List.any_eq_false] at hl
  simpa using hl q hq

theorem loadResource_ends (hh : l.documents.handlers = []) {importer : Importer}
    (hi : l.Follows n importer) {s t : Session} {o : Except Failure Nat}
    (h : l.loadResource importer r s = (o, t)) : l.LoadEnds (n + 1) (.ok [r]) s o t := by
  have hfails : ∀ f, l.LoadFails r f → f ≠ .exhausted →
      l.LoadEnds (n + 1) (.ok [r]) s (.error f) s := by
    intro f hf hne
    refine ⟨rfl, fun _ hm => hm, fun hg => ?_, fun hg => ?_⟩
    · cases hg
      exact .inr (.inr ⟨[r], r, rfl, List.mem_singleton_self r, hf⟩)
    · exact absurd (Except.error.inj hg) hne
  rw [loadResource_apply] at h
  split at h
  · cases h
    exact hfails _ (.inl rfl) (fun h => by cases h)
  next hl =>
  rw [Bool.not_eq_true] at hl
  split at h
  · next f hp =>
    cases h
    exact hfails f (.inr (.inl hp)) fun hf => present_ne_exhausted (hf ▸ hp)
  · cases h
    exact hfails _ (.inl rfl) (fun h => by cases h)
  · next hp =>
    have hr : r ≠ .unknown := by
      rintro rfl
      cases hp
    rcases ho : l.readResource importer r
        { s with
          loading := r :: s.loading
          entries := .began r :: .remark (.loading r.description) :: s.entries } with ⟨o', u⟩
    rw [whileLoading_apply ho] at h
    cases h
    obtain ⟨⟨hloading, hbegun⟩, hf, hs⟩ := readResource_ends hh hi hp ho
    have hb : r :: s.begun ⊆ u.begun := hbegun
    have hnew : r ∈ u.begun := hb List.mem_cons_self
    refine ⟨?_, fun q hq => hb (List.mem_cons_of_mem r hq), fun {f} ho => ?_, fun ho => ?_⟩
    · exact (congrArg (List.filter fun q => !Resource.same r q) hloading).trans (filter_same hr hl)
    · refine (hf f ho).imp_right fun hf => .inr ⟨[r], r, rfl, List.mem_singleton_self r, hf⟩
    · obtain ⟨hstack, hself⟩ := hs ho
      refine (hstack.push hnew hp hl hself).mono fun q hq => ?_
      exact ⟨[r], r, rfl, List.mem_singleton_self r, hq⟩

theorem LoadEnds.trans {rs : List Resource} {s t u : Session} {count : Nat}
    {o : Except Failure Nat} (h : l.LoadEnds n (.ok [r]) s (.ok count) t)
    (h' : l.LoadEnds n (.ok rs) t o u) : l.LoadEnds n (.ok (r :: rs)) s o u where
  loading := h'.loading.trans h.loading
  begun := List.Subset.trans h.begun h'.begun
  failure := by
    intro f hf
    rcases h'.failure hf with hf | hf | ⟨qs, q, hqs, hq, hf⟩
    · exact .inl hf
    · cases hf
    · cases hqs
      exact .inr (.inr ⟨r :: rs, q, rfl, List.mem_cons_of_mem r hq, hf⟩)
  stack := by
    intro ho
    have hs := h'.stack ho
    rw [h.loading] at hs
    refine hs.mono ?_
    rintro q ⟨qs, q', hqs, hq, hb⟩
    cases hqs
    exact ⟨r :: rs, q', rfl, List.mem_cons_of_mem r hq, hb⟩

theorem LoadEnds.head {rs : List Resource} {s t : Session} {o : Except Failure Nat}
    (h : l.LoadEnds n (.ok [r]) s o t) : l.LoadEnds n (.ok (r :: rs)) s o t where
  loading := h.loading
  begun := h.begun
  failure := by
    intro f hf
    rcases h.failure hf with hf | hf | ⟨qs, q, hqs, hq, hf⟩
    · exact .inl hf
    · cases hf
    · cases hqs
      rw [List.mem_singleton.mp hq] at hf
      exact .inr (.inr ⟨r :: rs, r, rfl, List.mem_cons_self, hf⟩)
  stack := by
    intro ho
    refine (h.stack ho).mono ?_
    rintro q ⟨qs, q', hqs, hq, hb⟩
    cases hqs
    rw [List.mem_singleton.mp hq] at hb
    exact ⟨r :: rs, r, rfl, List.mem_cons_self, hb⟩

theorem loadAll_ends (hh : l.documents.handlers = []) {importer : Importer}
    (hi : l.Follows n importer) {rs loaded more : List Resource} {count : Nat} {s t : Session}
    {o : Except Failure Nat} (h : l.loadAll importer count loaded rs s = ((o, more), t)) :
    l.LoadEnds (n + 1) (.ok rs) s o t := by
  induction rs generalizing count loaded s with
  | nil =>
    cases h
    refine ⟨rfl, fun _ hm => hm, fun hf => ?_, fun hf => ?_⟩ <;> cases hf
  | cons r rs ih =>
    rw [loadAll] at h
    rcases hr : l.loadResource importer r s with ⟨f | m, u⟩
    · have hends := loadResource_ends hh hi hr
      simp only [bind, StateT.bind, ExceptT.run, hr] at h
      cases h
      exact hends.head
    · have hends := loadResource_ends hh hi hr
      simp only [bind, StateT.bind, ExceptT.run, hr] at h
      exact hends.trans (ih h)

theorem loadLocation_ends (hh : l.documents.handlers = []) {importer : Importer}
    (hi : l.Follows n importer) {location : String} {loaded more : List Resource} {s t : Session}
    {o : Except Failure Nat}
    (h : l.loadLocation importer location loaded s = ((o, more), t)) :
    l.LoadEnds (n + 1) (Location.resources l.workspace location) s o t := by
  unfold loadLocation at h
  cases hr : Location.resources l.workspace location with
  | error f =>
    rw [hr] at h
    cases h
    refine ⟨rfl, fun _ hm => hm, fun hf => ?_, fun hf => ?_⟩
    · cases hf
      exact .inr (.inl rfl)
    · cases hf
      exact absurd hr resources_ne_exhausted
  | ok rs =>
    rw [hr] at h
    dsimp only at h
    rcases ha : l.loadAll importer 0 loaded rs s with ⟨⟨f | count, more'⟩, u⟩
    · have hends := loadAll_ends hh hi ha
      simp only [bind, StateT.bind, ha] at h
      cases h
      exact hends
    · have hends := loadAll_ends hh hi ha
      simp only [bind, StateT.bind, ha] at h
      cases h
      refine ⟨hends.loading, hends.begun, fun hf => ?_, fun hf => ?_⟩ <;> cases hf

theorem exhausted_follows : l.Follows 0 .exhausted := by
  have hends : ∀ sought s, l.LoadEnds 0 sought s (.error .exhausted) s := by
    intro sought s
    refine ⟨rfl, fun _ hm => hm, fun hf => ?_, fun _ => ⟨[], rfl, .nil, by simp⟩⟩
    cases hf
    exact .inl rfl
  constructor
  · intro location loaded more s t o h
    cases h
    exact hends _ _
  · intro r s t o h
    cases h
    exact hends _ _

theorem importer_follows (hh : l.documents.handlers = []) (depth : Nat) :
    l.Follows depth (l.importer depth) := by
  induction depth with
  | zero => exact exhausted_follows
  | succ depth ih => exact ⟨loadLocation_ends hh ih, loadResource_ends hh ih⟩

end Loader

end BeanCatalog
