import BeanCatalog.Proofs.Loading.Depth
import BeanCatalog.Proofs.Loading.Trace
import BeanCatalog.Proofs.Placeholder.Outcome
import Mathlib.Data.List.Perm.Subperm

/-!
When loading comes to an end. It does where the resources that it can come to are finitely many,
since none of them is loaded inside itself.
-/

namespace BeanCatalog

namespace Loader

variable (l : Loader)

/-- Loading a location comes to an end: it does not stop for want of depth, and more depth changes
nothing. -/
def LocationEnds (location : String) (loaded : List Resource) (s : Session) : Prop :=
  ∃ depth, (∀ f, ((l.importer depth).loadLocation location loaded s).1.1 = .error f →
      f.kind ≠ .exhausted) ∧
    ∀ more, (l.importer (depth + more)).loadLocation location loaded s =
      (l.importer depth).loadLocation location loaded s

def ResourceEnds (r : Resource) (s : Session) : Prop :=
  ∃ depth, (∀ f, ((l.importer depth).loadResource r s).1 = .error f → f.kind ≠ .exhausted) ∧
    ∀ more, (l.importer (depth + more)).loadResource r s = (l.importer depth).loadResource r s

/-- Resources whose documents hold no placeholders in their imports and name only such resources. -/
structure Closed (good : Resource → Prop) : Prop where
  free {r : Resource} {root e : Element} : good r → l.Document r root → root.Imports e →
    PlaceholderFree (e.attr "resource")
  named {r q : Resource} {root e : Element} {kind : LocationKind} {qs : List Resource} : good r →
    l.Document r root → root.Imports e → l.Seeks r e kind (.ok qs) → q ∈ qs → good q

variable {l} {good : Resource → Prop} {r q : Resource} {root doc e : Element} {f : Failure} {n : Nat}

theorem resolveRequired_free (env : Environment) {text : String} (h : PlaceholderFree text) :
    env.resolveRequired text = .ok text :=
  resolvePlaceholders_free h _

theorem resources_kind {w : Workspace} {location : String}
    (h : Location.resources w location = .error f) : f.kind ≠ .exhausted := by
  rcases Location.resources_error h with rfl | ⟨err, -, rfl⟩ | rfl <;> exact fun h => by cases h

theorem named_kind {w : Workspace} {location : String} {kind : LocationKind}
    (h : r.named w location kind = .error f) : f.kind ≠ .exhausted := by
  rcases named_error h with ⟨-, hs⟩ | ⟨place, hp⟩
  · intro hk
    rw [hk] at hs
    cases hs
  · exact resources_kind hp

theorem present_kind {w : Workspace} (h : r.present w = .error f) : f.kind ≠ .exhausted := by
  rcases present_error h with rfl | ⟨rfl, -⟩ <;> exact fun h => by cases h

theorem refuses_kind {reporter : Reporter} (h : reporter.Refuses f) : f.kind ≠ .exhausted := by
  intro hk
  cases reporter <;> cases f <;> first | exact h | cases hk

namespace Closed

theorem walked (hg : l.Closed good) (hr : good r) (hd : l.Document r root)
    (h : l.Walked r root q doc) : good q ∧ l.Document q doc := by
  induction h with
  | start => exact ⟨hr, hd⟩
  | next _ he hn hm hd' ih => exact ⟨hg.named ih.1 ih.2 he hn hm, hd'⟩

theorem loadFails_kind (hg : l.Closed good) (hr : good r) (h : l.LoadFails r f) :
    f.kind ≠ .exhausted := by
  rcases h with hs | hp | ⟨root, hd, hf | ⟨q, doc, e, hw, he, hf⟩⟩
  · intro hk
    rw [hk] at hs
    cases hs
  · exact present_kind hp
  · exact refuses_kind hf
  · obtain ⟨hq, hdoc⟩ := hg.walked hr hd hw
    cases hf with
    | placeholder hb hl =>
      rw [resolveRequired_free _ (hg.free hq hdoc he)] at hl
      cases hl
    | unnamed hn =>
      obtain ⟨-, location, -, -, hn⟩ := hn
      exact named_kind hn
    | unseen _ _ hp => exact present_kind hp

theorem loadEnds_kind (hg : l.Closed good) {sought : Except Failure (List Resource)}
    {s t : Session} {o : Except Failure Nat} (h : l.LoadEnds n sought s o t)
    (hs : ∀ f, sought = .error f → f.kind ≠ .exhausted)
    (hr : ∀ rs r, sought = .ok rs → r ∈ rs → good r) {places : List Resource}
    (hp : ∀ q, good q → q.present l.workspace = .ok true → q ∈ t.begun → q ∈ places)
    (hn : places.length < n) (ho : o = .error f) : f.kind ≠ .exhausted := by
  have hnot : o ≠ .error .exhausted := by
    intro he
    obtain ⟨chain, hlength, hnodup, hc⟩ := h.stack he
    have hsub : chain ⊆ places := by
      intro q hq
      obtain ⟨hb, hpq, -, rs, r, hrs, hm, root, doc, hd, -, hw⟩ := hc q hq
      exact hp q (hg.walked (hr rs r hrs hm) hd hw).1 hpq hb
    have hle := (List.subperm_of_subset hnodup hsub).length_le
    omega
  rcases h.failure ho with rfl | hf | ⟨rs, r, hrs, hm, hf⟩
  · exact absurd ho hnot
  · exact hs f hf
  · exact hg.loadFails_kind (hr rs r hrs hm) hf

theorem locationEnds (hg : l.Closed good) (hh : l.documents.handlers = []) {location : String}
    {loaded : List Resource} {s : Session}
    (hr : ∀ rs r, Location.resources l.workspace location = .ok rs → r ∈ rs → good r)
    (places : List Resource) (hp : ∀ depth q, good q → q.present l.workspace = .ok true →
      q ∈ ((l.importer depth).loadLocation location loaded s).2.begun → q ∈ places) :
    l.LocationEnds location loaded s := by
  let depth := places.length + 1
  have hkind : ∀ f, ((l.importer depth).loadLocation location loaded s).1.1 = .error f →
      f.kind ≠ .exhausted := by
    intro f ho
    have hends : l.LoadEnds depth (Location.resources l.workspace location) s
        ((l.importer depth).loadLocation location loaded s).1.1
        ((l.importer depth).loadLocation location loaded s).2 :=
      (importer_follows hh depth).location rfl
    exact hg.loadEnds_kind hends (fun f => resources_kind) hr (hp depth) (Nat.lt_succ_self _) ho
  refine ⟨depth, hkind, fun more => ?_⟩
  rcases (importer_deeper hh depth more).location location loaded s with he | he
  · exact absurd rfl (hkind _ he)
  · exact he

theorem resourceEnds (hg : l.Closed good) (hh : l.documents.handlers = []) {s : Session}
    (hr : good r) (places : List Resource)
    (hp : ∀ depth q, good q → q.present l.workspace = .ok true →
      q ∈ ((l.importer depth).loadResource r s).2.begun → q ∈ places) : l.ResourceEnds r s := by
  let depth := places.length + 1
  have hkind : ∀ f, ((l.importer depth).loadResource r s).1 = .error f → f.kind ≠ .exhausted := by
    intro f ho
    have hends := (importer_follows hh depth).resource (r := r) (s := s) rfl
    refine hg.loadEnds_kind hends (fun g h => by cases h) ?_ (hp depth) (Nat.lt_succ_self _) ho
    intro rs q hrs hq
    cases hrs
    rwa [List.mem_singleton.mp hq]
  refine ⟨depth, hkind, fun more => ?_⟩
  rcases (importer_deeper hh depth more).resource r s with he | he
  · exact absurd rfl (hkind _ he)
  · exact he

end Closed

end Loader

end BeanCatalog
