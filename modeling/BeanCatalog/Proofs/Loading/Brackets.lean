import BeanCatalog.Proofs.Loading.Course
import BeanCatalog.Proofs.Loading.FailFast

namespace BeanCatalog

/-- What is told of a child of a scope: a problem that names it or one of its own children, or its
event. -/
inductive Resource.Concerns (r : Resource) (c : Element) : JournalEntry → Prop
  | problem {severity : Severity} {p : Problem} {x : Element} (hx : x = c ∨ x ∈ c.children)
      (he : p.element = some x) (hr : p.resource = some r.description) :
      Concerns r c (.problem severity p)
  | imported (location : String) (resources : List Resource) :
      Concerns r c (.event (.imported location resources (r.sourceOf c)))
  | aliased (name alt : String) : Concerns r c (.event (.aliased name alt (r.sourceOf c)))
  | component (holder : Holder) : Concerns r c (.event (.component holder (r.sourceOf c)))

/-- Journals of what stands directly in a scope of the document at a resource, or outside of all scopes
of a document. Each scope tells its defaults, opens at once and closes, and in between stands what is
told of its children, with the documents that they load. -/
inductive Bracketed : (place : Option (Resource × Element)) → List JournalEntry → Prop
  | nil {place : Option (Resource × Element)} : Bracketed place []
  | child {r : Resource} {scope c : Element} {entry : JournalEntry} {rest : List JournalEntry}
      (hc : c ∈ scope.children) (he : r.Concerns c entry) (hrest : Bracketed (some (r, scope)) rest) :
      Bracketed (some (r, scope)) (entry :: rest)
  | foreign {r : Resource} {root : Element} {entry : JournalEntry} {rest : List JournalEntry}
      (hd : root.isDefault = false) (he : r.Concerns root entry)
      (hrest : Bracketed (some (r, root)) rest) : Bracketed (some (r, root)) (entry :: rest)
  | invalid {r : Resource} {root : Element} {entry : JournalEntry} (he : r.Concerns root entry) :
      Bracketed none [entry]
  | scope {place : Option (Resource × Element)} {r : Resource} {e : Element} {values : ScopeDefaults}
      {inside rest : List JournalEntry} (hp : ∀ p ∈ place, p.1 = r ∧ e ∈ p.2.children)
      (hinside : Bracketed (some (r, e)) inside) (hrest : Bracketed place rest) :
      Bracketed place
        (.event (.defaults values (r.sourceOf e)) :: .opened e :: (inside ++ .closed e :: rest))
  | load {p : Resource × Element} {q : Resource} {completed : Bool} {inside rest : List JournalEntry}
      (hinside : Bracketed none inside) (hrest : Bracketed (some p) rest) :
      Bracketed (some p) (.began q :: (inside ++ .ended q completed :: rest))

/-- No load has failed halfway: the loads that failed had opened no scope. -/
def ReadThrough (journal : List JournalEntry) : Prop :=
  ∀ q inside, .began q :: (inside ++ [.ended q false]) <:+: journal → Level inside →
    ∀ e, .opened e ∉ inside

section

variable {first rest journal : List JournalEntry} {r : Resource} {e scope : Element}

theorem ReadThrough.mono (h : ReadThrough journal) (hpart : first <:+: journal) :
    ReadThrough first := fun q inside hload => h q inside (hload.trans hpart)

theorem ReadThrough.of_completed (h : ∀ q, .ended q false ∉ journal) : ReadThrough journal := by
  intro q inside hload
  have hm : JournalEntry.ended q false ∈ .began q :: (inside ++ [.ended q false]) :=
    List.mem_cons_of_mem _ (List.mem_append_right _ List.mem_cons_self)
  exact absurd (hload.subset hm) (h q)

theorem ReadThrough.left (h : ReadThrough (first ++ rest)) : ReadThrough first :=
  h.mono (List.prefix_append first rest).isInfix

theorem ReadThrough.right (h : ReadThrough (first ++ rest)) : ReadThrough rest :=
  h.mono (List.suffix_append first rest).isInfix

theorem Resource.Blames.concerns {x : Element} {entry : JournalEntry} (h : r.Blames x entry)
    (hx : x = e ∨ x ∈ e.children) : r.Concerns e entry := by
  cases h with
  | intro p he hr => exact .problem hx he hr

theorem Resource.Answers.concerns (h : r.Answers e journal) :
    ∀ entry ∈ journal, r.Concerns e entry := by
  intro entry hm
  cases h with
  | refused _ _ hall =>
    obtain ⟨x, hx, hblamed⟩ := hall entry hm
    exact hblamed.concerns hx
  | announced he hall =>
    rcases List.mem_append.mp hm with hm | hm
    · obtain ⟨c, hc, hblamed⟩ := hall entry hm
      exact hblamed.concerns (.inr hc)
    · rw [List.mem_singleton.mp hm]
      cases he with
      | aliased => exact .aliased _ _
      | bean _ holder => exact .component holder

namespace Bracketed

theorem children (hc : e ∈ scope.children) (h : ∀ entry ∈ journal, r.Concerns e entry) :
    Bracketed (some (r, scope)) journal := by
  induction journal with
  | nil => exact .nil
  | cons entry journal ih =>
    have hrest : ∀ other ∈ journal, r.Concerns e other := fun other hm =>
      h other (List.mem_cons_of_mem _ hm)
    exact .child hc (h entry List.mem_cons_self) (ih hrest)

theorem append {p : Resource × Element} (hfirst : Bracketed (some p) first)
    (hrest : Bracketed (some p) rest) : Bracketed (some p) (first ++ rest) := by
  generalize hplace : some p = place at hfirst hrest
  induction hfirst with
  | nil => exact hrest
  | child hc he _ ih => exact .child hc he (ih hplace hrest)
  | foreign hd he _ ih => exact .foreign hd he (ih hplace hrest)
  | invalid => cases hplace
  | scope hp hinside _ _ ih =>
    rw [List.cons_append, List.cons_append, List.append_assoc, List.cons_append]
    exact .scope hp hinside (ih hplace hrest)
  | load hinside _ _ ih =>
    rw [List.cons_append, List.append_assoc, List.cons_append]
    exact .load hinside (ih hplace hrest)

end Bracketed

theorem JournalEntry.marksLoad_of_own {entry : JournalEntry} (h : entry.own = true) :
    entry.marksLoad = false := by
  cases entry <;> first | rfl | cases h

theorem Level.of_own (h : ∀ entry ∈ journal, entry.own = true) : Level journal :=
  .plain fun entry hm => JournalEntry.marksLoad_of_own (h entry hm)

end

def Part.Stands (r : Resource) (place : Option (Resource × Element)) : Part → Prop
  | .scope _ e => ∀ p ∈ place, p.1 = r ∧ e ∈ p.2.children
  | .contents _ inside => ∃ scope, place = some (r, scope) ∧
    ∀ c, .element c ∈ inside → c ∈ scope.children
  | .element _ e => ∃ scope, place = some (r, scope) ∧ e ∈ scope.children
  | .documents => ∃ scope, place = some (r, scope)

namespace Loader

variable {l : Loader} {r : Resource} {part : Part} {whole : Bool} {journal : List JournalEntry}

namespace Course

theorem level (h : l.Course r part whole journal) : Level journal := by
  induction h with
  | @accepted _ _ e whole inside _ _ _ ih =>
    refine .entry rfl (.entry rfl (ih.append ?_))
    cases whole with
    | true => exact .one rfl
    | false => exact .nil
  | foreign _ ho =>
    exact .entry rfl (.entry rfl (.entry (JournalEntry.marksLoad_of_own ho.own) (.one rfl)))
  | rejected | nothing | other | done | refused => exact .nil
  | invalid _ _ ho | custom _ ho | blank _ _ _ ho =>
    exact .one (JournalEntry.marksLoad_of_own ho.own)
  | text _ ih | last _ ih | nested _ _ _ ih | raised _ _ _ ih => exact ih
  | next _ _ ihfirst ihback => exact ihfirst.append ihback
  | answered _ _ ho => exact .of_own ho.own
  | imported _ _ _ _ _ _ ih => exact ih.append ((Level.of_own (warnings_own _)).append (.one rfl))
  | failed _ _ _ _ ho _ ih =>
    exact ih.append (.entry (JournalEntry.marksLoad_of_own ho.own) (.one rfl))
  | load _ _ _ ihinside ihrest => exact .load ihinside ihrest
  | unread => exact .load .nil .nil
  | cut _ _ ih => exact .load ih .nil

theorem opened_of_cut {outer : Defaults} {e : Element}
    (h : l.Course r (.scope outer e) false journal) : .opened e ∈ journal := by
  cases h with
  | accepted => exact List.mem_cons_of_mem _ List.mem_cons_self

theorem bracketed (h : l.Course r part whole journal) (hw : whole = true ∨ part = .documents)
    (hread : ReadThrough journal) {place : Option (Resource × Element)} (hp : part.Stands r place) :
    Bracketed place journal := by
  induction h generalizing place with
  | @accepted r outer e whole inside _ _ _ ih =>
    obtain rfl : whole = true := hw.resolve_right nofun
    have hinside : ReadThrough inside :=
      hread.mono ⟨[.event (.defaults _ _), .opened e], [.closed e], rfl⟩
    have hcontents : (Part.contents (outer.enter e) e.contents).Stands r (some (r, e)) :=
      ⟨e, rfl, fun c hc => List.mem_filterMap.mpr ⟨_, hc, rfl⟩⟩
    exact .scope hp (ih (.inl rfl) hinside hcontents) .nil
  | foreign hd ho => exact .scope hp (.foreign hd (ho.concerns (.inl rfl)) .nil) .nil
  | rejected | nothing | other | done | refused => exact .nil
  | invalid _ _ ho =>
    cases place with
    | none => exact .invalid (ho.concerns (.inl rfl))
    | some p =>
      obtain ⟨rfl, hc⟩ := hp p rfl
      exact .child hc (ho.concerns (.inl rfl)) .nil
  | text _ ih =>
    obtain ⟨scope, rfl, hc⟩ := hp
    refine ih (.inl (hw.resolve_right nofun)) hread ⟨scope, rfl, fun c hm => ?_⟩
    exact hc c (List.mem_cons_of_mem _ hm)
  | next _ _ ihfirst ihback =>
    obtain ⟨scope, rfl, hc⟩ := hp
    refine (ihfirst (.inl rfl) hread.left ⟨scope, rfl, hc _ List.mem_cons_self⟩).append ?_
    refine ihback (.inl (hw.resolve_right nofun)) hread.right ⟨scope, rfl, fun c hm => ?_⟩
    exact hc c (List.mem_cons_of_mem _ hm)
  | last => exact absurd hw (by simp)
  | raised => exact absurd hw (by simp)
  | custom _ ho | blank _ _ _ ho =>
    obtain ⟨scope, rfl, hc⟩ := hp
    exact .child hc (ho.concerns (.inl rfl)) .nil
  | nested _ _ _ ih =>
    obtain ⟨scope, rfl, hc⟩ := hp
    refine ih (.inl (hw.resolve_right nofun)) hread fun p hm => ?_
    obtain rfl := Option.some.inj hm
    exact ⟨rfl, hc⟩
  | answered _ _ ho =>
    obtain ⟨scope, rfl, hc⟩ := hp
    exact .children hc ho.concerns
  | @imported r _ e location resources warning _ _ _ _ _ hwarning _ ih =>
    obtain ⟨scope, rfl, hc⟩ := hp
    refine (ih (.inr rfl) hread.left ⟨scope, rfl⟩).append (.children hc fun entry hm => ?_)
    rcases List.mem_append.mp hm with hm | hm
    · obtain ⟨p, hwarned, rfl⟩ := List.mem_map.mp hm
      obtain ⟨he, hr⟩ := hwarning p (Option.mem_toList.mp hwarned)
      exact .problem (.inl rfl) he hr
    · rw [List.mem_singleton.mp hm]
      exact .imported _ _
  | failed _ _ _ _ ho _ ih =>
    obtain ⟨scope, rfl, hc⟩ := hp
    refine (ih (.inr rfl) hread.left ⟨scope, rfl⟩).append ?_
    exact .child hc (ho.concerns (.inl rfl)) (.child hc (.imported _ _) .nil)
  | @load _ q _ _ inside rest _ _ _ ihinside ihrest =>
    obtain ⟨scope, rfl⟩ := hp
    have hinside : ReadThrough inside := hread.mono ⟨[.began q], .ended q true :: rest, by simp⟩
    have hrest : ReadThrough rest := hread.mono ⟨.began q :: (inside ++ [.ended q true]), [], by simp⟩
    exact .load (ihinside (.inl rfl) hinside nofun) (ihrest (.inr rfl) hrest ⟨scope, rfl⟩)
  | unread =>
    obtain ⟨scope, rfl⟩ := hp
    exact .load .nil .nil
  | @cut _ q _ inside _ h _ =>
    -- the one way to open a scope without closing it
    exact absurd h.opened_of_cut (hread q inside List.infix_rfl h.level _)

end Course

theorem registerDocument_collecting (hh : l.documents.handlers = []) {reporter : Reporter}
    (hr : reporter ≠ .unable) {depth n : Nat} {root : Element} {s t : Session}
    (h : (l.reporting reporter).registerDocument ((l.reporting reporter).importer depth) root r s =
      (.ok n, t)) :
    (l.reporting .collecting).registerDocument ((l.reporting .collecting).importer depth) root r s =
      (.ok n, t) := by
  cases reporter with
  | collecting => exact h
  | unable => exact absurd rfl hr
  | failFast =>
    have hlayers := l.relation_cutBy.layered hh
    have hcut : Cut Raised s
        ((l.reporting .collecting).registerDocument ((l.reporting .collecting).importer depth) root r s)
        ((l.reporting .failFast).registerDocument ((l.reporting .failFast).importer depth) root r s) :=
      hlayers.registerDocument (hlayers.importer depth) root r s
    rw [h] at hcut
    generalize (l.reporting .collecting).registerDocument ((l.reporting .collecting).importer depth)
      root r s = whole at hcut ⊢
    cases hcut with
    | unbroken => rfl
    | broken _ _ _ _ _ _ _ hraised _ =>
      obtain ⟨p, hp⟩ := hraised
      cases hp

/-- Where no reporter ends it, the reading of a document tells the course of its tree, and if no import
is cut short, then every scope has its bracket. -/
theorem scopes_bracketed (hh : l.documents.handlers = []) (hl : l.listening = true)
    {reporter : Reporter} (hr : reporter ≠ .unable) {depth n : Nat} {root : Element} {s t : Session}
    (h : (l.reporting reporter).registerDocument ((l.reporting reporter).importer depth) root r s =
      (.ok n, t)) :
    ∃ journal, s.Entered journal t ∧
      (l.reporting .collecting).Course r (.scope [] root) true (course journal) ∧
        (ReadThrough (course journal) → Bracketed none (course journal)) := by
  have hcollecting := registerDocument_collecting hh hr h
  have hi : (l.reporting .collecting).Tells ((l.reporting .collecting).importer depth) :=
    importer_tells (l := l.reporting .collecting) rfl hl hh depth
  obtain ⟨journal, hj, hcourse⟩ :=
    registerDocument_runs (l := l.reporting .collecting) (r := r) rfl hl hh hi root s
  rw [hcollecting] at hj hcourse
  exact ⟨journal, hj, hcourse, fun hread => hcourse.bracketed (.inl rfl) hread nofun⟩

end Loader

def scopedRoot : Element :=
  ⟨"beans", none, [],
    [.element ⟨"beans", none, [],
        [.element ⟨"import", none, [("resource", "b.xml")], [], some 3⟩], some 2⟩,
      .element ⟨"beans", none, [("profile", " , ")], [], some 4⟩,
      .element ⟨"bean", none, [("id", "a"), ("class", "A")], [], some 5⟩], some 1⟩

def scopedRun : Except Failure Nat × Session :=
  nestedLoader.registerDocument (nestedLoader.importer 1) scopedRoot
    (.ofFile nestedLoader.workspace "a.xml") {}

def JournalEntry.bracket : JournalEntry → Option (Option Int × Bool)
  | .opened e => some (e.line, true)
  | .closed e => some (e.line, false)
  | _ => none

theorem scopedRoot_bracketed :
    nestedLoader.documents.handlers = [] ∧ Reporter.collecting ≠ .unable ∧
      scopedRun.1.toBool = true ∧
      scopedRun.2.journal.filterMap (·.bracket) =
        [(some 1, true), (some 2, true), (some 1, true), (some 1, false), (some 2, false),
          (some 1, false)] ∧
      Bracketed none (course scopedRun.2.journal) := by
  obtain ⟨hok, hscopes, hcompleted⟩ :
      scopedRun.1.toBool = true ∧
      scopedRun.2.journal.filterMap (·.bracket) =
        [(some 1, true), (some 2, true), (some 1, true), (some 1, false), (some 2, false),
          (some 1, false)] ∧
      (course scopedRun.2.journal).all (fun
        | .ended _ completed => completed
        | _ => true) = true := by
    decide +kernel
  refine ⟨rfl, nofun, hok, hscopes, ?_⟩
  have hread : ReadThrough (course scopedRun.2.journal) :=
    .of_completed fun q hm => absurd (List.all_eq_true.mp hcompleted _ hm) nofun
  have hr : Reporter.collecting ≠ .unable := nofun
  rcases hrun : scopedRun with ⟨f | n, t⟩
  · rw [hrun] at hok
    cases hok
  · obtain ⟨journal, hj, -, hbracketed⟩ :=
      Loader.scopes_bracketed (l := nestedLoader) rfl rfl hr hrun
    rw [hrun] at hread
    have hjournal : t.journal = journal := hj.journal
    rw [hjournal] at hread ⊢
    exact hbracketed hread

end BeanCatalog
