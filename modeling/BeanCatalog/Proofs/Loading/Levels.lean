import BeanCatalog.Proofs.Loading.Journals

namespace BeanCatalog

def JournalEntry.marksLoad : JournalEntry → Bool
  | .began _ | .ended .. => true
  | _ => false

/-- Journals in which each load that begins ends, one load inside another or after it. -/
inductive Level : List JournalEntry → Prop
  | nil : Level []
  | entry {e : JournalEntry} {rest : List JournalEntry} (he : e.marksLoad = false)
      (hrest : Level rest) : Level (e :: rest)
  | load {r : Resource} {completed : Bool} {inside rest : List JournalEntry} (hinside : Level inside)
      (hrest : Level rest) : Level (.began r :: (inside ++ .ended r completed :: rest))

/-- What a journal tells outside of the loads in it, when `n` loads are open as it begins. -/
def outside : (n : Nat) → List JournalEntry → List JournalEntry
  | _, [] => []
  | n, .began _ :: rest => outside (n + 1) rest
  | n, .ended _ _ :: rest => outside (n - 1) rest
  | 0, e :: rest => e :: outside 0 rest
  | n + 1, _ :: rest => outside (n + 1) rest

variable {e : JournalEntry} {first rest journal : List JournalEntry}

theorem outside_entry (he : e.marksLoad = false) : outside 0 (e :: rest) = e :: outside 0 rest := by
  cases e <;> first | rfl | cases he

theorem outside_inside (n : Nat) (he : e.marksLoad = false) :
    outside (n + 1) (e :: rest) = outside (n + 1) rest := by
  cases e <;> first | rfl | cases he

theorem stillLoading_entry (begun : List Resource) (he : e.marksLoad = false) :
    stillLoading begun (e :: rest) = stillLoading begun rest := by
  cases e <;> first | rfl | cases he

theorem stillLoading_append (begun : List Resource) (first rest : List JournalEntry) :
    stillLoading begun (first ++ rest) = stillLoading (stillLoading begun first) rest := by
  induction first generalizing begun with
  | nil => rfl
  | cons e first ih => cases e <;> exact ih _

theorem outside_plain (h : ∀ e ∈ journal, e.marksLoad = false) : outside 0 journal = journal := by
  induction journal with
  | nil => rfl
  | cons e journal ih =>
    rw [outside_entry (h e List.mem_cons_self), ih fun e he => h e (List.mem_cons_of_mem _ he)]

namespace Level

theorem one (he : e.marksLoad = false) : Level [e] := .entry he .nil

theorem plain (h : ∀ e ∈ journal, e.marksLoad = false) : Level journal := by
  induction journal with
  | nil => exact .nil
  | cons e journal ih =>
    exact .entry (h e List.mem_cons_self) (ih fun e he => h e (List.mem_cons_of_mem _ he))

theorem append (hfirst : Level first) (hrest : Level rest) : Level (first ++ rest) := by
  induction hfirst with
  | nil => exact hrest
  | entry he _ ih => exact .entry he ih
  | @load r completed inside back hinside _ _ ih =>
    rw [List.cons_append, List.append_assoc, List.cons_append]
    exact .load hinside ih

theorem outside_inside (h : Level first) (n : Nat) (rest : List JournalEntry) :
    outside (n + 1) (first ++ rest) = outside (n + 1) rest := by
  induction h generalizing n rest with
  | nil => rfl
  | entry he _ ih =>
    rw [List.cons_append, BeanCatalog.outside_inside n he]
    exact ih n rest
  | @load r completed inside back _ _ ihinside ihback =>
    rw [List.cons_append, List.append_assoc]
    change outside (n + 2) (inside ++ (.ended r completed :: back ++ rest)) = _
    rw [ihinside]
    exact ihback n rest

theorem outside_append (h : Level first) (rest : List JournalEntry) :
    outside 0 (first ++ rest) = outside 0 first ++ outside 0 rest := by
  induction h with
  | nil => rfl
  | entry he _ ih =>
    rw [List.cons_append, outside_entry he, outside_entry he, ih]
    rfl
  | @load r completed inside back hinside _ _ ih =>
    rw [List.cons_append, List.append_assoc]
    change outside 1 (inside ++ (.ended r completed :: (back ++ rest))) =
      outside 1 (inside ++ .ended r completed :: back) ++ _
    rw [hinside.outside_inside, hinside.outside_inside]
    exact ih

theorem outside_load {inside : List JournalEntry} (h : Level inside) (r : Resource)
    (completed : Bool) : outside 0 (.began r :: (inside ++ [.ended r completed])) = [] := by
  change outside 1 (inside ++ [.ended r completed]) = []
  rw [h.outside_inside]
  rfl

theorem stillLoading (h : Level journal) (begun : List Resource) :
    stillLoading begun journal = begun := by
  induction h generalizing begun with
  | nil => rfl
  | entry he _ ih =>
    rw [stillLoading_entry begun he]
    exact ih begun
  | @load r completed inside back _ _ ihinside ihback =>
    change BeanCatalog.stillLoading (r :: begun) (inside ++ .ended r completed :: back) = begun
    rw [stillLoading_append, ihinside]
    exact ihback begun

end Level

inductive JournalEntry.Talk : JournalEntry → Prop
  | remark (r : Remark) : Talk (.remark r)
  | problem (severity : Severity) (p : Problem) : Talk (.problem severity p)
  | imported (location : String) (resources : List Resource) (source : SourceLocation) :
      Talk (.event (.imported location resources source))

theorem JournalEntry.Talk.remarks (remarks : List Remark) :
    ∀ e ∈ remarks.map JournalEntry.remark, e.Talk := by
  intro e hm
  obtain ⟨r, -, rfl⟩ := List.mem_map.mp hm
  exact .remark r

theorem JournalEntry.Talk.marksLoad (h : e.Talk) : e.marksLoad = false := by
  cases h <;> rfl

namespace Reading

variable {α β : Type}

def Talks (act : Reading α) : Prop :=
  ∀ s : Session, (act s).2.registry = s.registry ∧
    ∃ journal, s.Entered journal (act s).2 ∧ ∀ e ∈ journal, e.Talk

namespace Talks

theorem same {act : Reading α} (hr : ∀ s : Session, (act s).2.registry = s.registry)
    (he : ∀ s : Session, (act s).2.entries = s.entries) : Talks act := fun s =>
  ⟨hr s, [], he s, fun _ hm => absurd hm List.not_mem_nil⟩

theorem bind {act : Reading α} {next : α → Reading β} (ha : Talks act) (hn : ∀ a, Talks (next a)) :
    Talks (act >>= next) := by
  intro s
  obtain ⟨hr, first, hfirst, htalk⟩ := ha s
  rcases h : act s with ⟨f | a, t⟩
  · rw [bind_error next h]
    rw [h] at hr hfirst
    exact ⟨hr, first, hfirst, htalk⟩
  · rw [bind_ok next h]
    rw [h] at hr hfirst
    obtain ⟨hr', rest, hrest, htalk'⟩ := hn a t
    refine ⟨hr'.trans hr, first ++ rest, hfirst.trans hrest, fun e hm => ?_⟩
    exact (List.mem_append.mp hm).elim (htalk e) (htalk' e)

theorem enter (he : e.Talk) : Talks (enter e) := fun _ =>
  ⟨rfl, [e], rfl, fun _ hm => List.mem_singleton.mp hm ▸ he⟩

theorem remark (r : Remark) : Talks (remark r) := enter (.remark r)

theorem throw (f : Failure) : Talks (throw f : Reading α) := same (fun _ => rfl) fun _ => rfl

theorem take (reporter : Reporter) (severity : Severity) (p : Problem) :
    Talks (reporter.take severity p) := by
  refine bind (enter (.problem severity p)) fun _ => ?_
  cases reporter <;> cases severity <;> first | exact remark _ | exact throw _

theorem parses (ctx : Context) (importer : Option Importer) :
    ParseRelation ctx (ctx.via importer) fun _ act _ => Talks act where
  alike := ⟨ctx.reporter, importer, rfl⟩
  done _ := same (fun _ => rfl) fun _ => rfl
  bind := bind
  session hn _ _ := bind (same (fun _ => rfl) fun _ => rfl) hn
  names _ := same (fun _ => rfl) fun _ => rfl
  remark := remark
  report _ _ _ _ := take _ _ _

theorem fire (ctx : Context) {event : Event} (h : JournalEntry.Talk (.event event)) :
    Talks (ctx.fire event) := by
  unfold Context.fire
  split
  · exact enter h
  · exact same (fun _ => rfl) fun _ => rfl

end Talks

end Reading

theorem registered_plain (r : Registry Definition) (calls : List (RegistryCall Definition)) :
    ∀ e ∈ Reading.registered r calls, e.marksLoad = false := by
  intro e he
  rcases List.mem_cons.mp he with rfl | he
  · rfl
  · obtain ⟨replacement, -, rfl⟩ := List.mem_map.mp he
    rfl

theorem Loader.level_law (l : Loader) : JournalLaw l fun _ journal _ => Level journal where
  nil _ := .nil
  append := .append
  silent _ _ he := .one (by cases he <;> rfl)
  problem _ _ _ := .one rfl
  load _ _ hinside := .load hinside .nil
  enroll := by
    intro importer q e enrolment s
    cases hc : (s.registry.calls (fun _ _ => false) enrolment.calls).refusal with
    | none =>
      rw [Context.enroll_accepted _ _ hc]
      refine ⟨_, rfl, (Level.plain (registered_plain _ _)).append ?_⟩
      split
      · exact .one rfl
      · exact .nil
    | some refusal =>
      obtain ⟨remarks, ht⟩ := (l.context importer q).enroll_refused e hc
      rw [ht]
      refine ⟨_, rfl, (Level.plain (registered_plain _ _)).append (.entry rfl (.plain ?_))⟩
      exact fun entry hm => (JournalEntry.Talk.remarks remarks entry hm).marksLoad

end BeanCatalog
