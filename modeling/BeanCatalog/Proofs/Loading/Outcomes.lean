import BeanCatalog.Proofs.Loading.Course
import BeanCatalog.Proofs.Loading.FailFast

namespace BeanCatalog

/-- A place in a document with an outcome: an alias, a bean or an import of a scope that is read, or
what is barred from being read, by its namespace or by profiles that are invalid. -/
inductive Station where
  | active (e : Element)
  | barred (e : Element)

namespace Element

variable (judge : Element → Except ProfileError Bool)

mutual

def stations : Element → List Station
  | ⟨tag, uri, attributes, contents, line⟩ =>
    match isDefaultNamespace uri, judge ⟨tag, uri, attributes, contents, line⟩ with
    | true, .ok true => stationsIn contents
    | true, .ok false => []
    | _, _ => [.barred ⟨tag, uri, attributes, contents, line⟩]

def stationsIn : List (Content Element) → List Station
  | [] => []
  | .text _ :: rest => stationsIn rest
  | .element e :: rest =>
    (match e.isDefault, e.kind with
      | false, _ => [.barred e]
      | true, .beans => stations e
      | true, .other => []
      | true, _ => [.active e]) ++ stationsIn rest

end

def stationsWithin (e : Element) : List Station :=
  match e.isDefault, e.kind with
  | false, _ => [.barred e]
  | true, .beans => e.stations judge
  | true, .other => []
  | true, _ => [.active e]

variable {judge} {e : Element}

theorem stationsIn_element (e : Element) (rest : List (Content Element)) :
    stationsIn judge (.element e :: rest) = e.stationsWithin judge ++ stationsIn judge rest := by
  rw [stationsIn]
  rfl

theorem stations_eq (e : Element) :
    e.stations judge =
      match e.isDefault, judge e with
      | true, .ok true => stationsIn judge e.contents
      | true, .ok false => []
      | _, _ => [.barred e] := by
  obtain ⟨tag, uri, attributes, contents, line⟩ := e
  rw [stations]
  rfl

theorem stations_accepted (hd : e.isDefault = true) (hj : judge e = .ok true) :
    e.stations judge = stationsIn judge e.contents := by
  rw [stations_eq, hd, hj]

theorem stations_rejected (hd : e.isDefault = true) (hj : judge e = .ok false) :
    e.stations judge = [] := by
  rw [stations_eq, hd, hj]

theorem stations_invalid {err : ProfileError} (hd : e.isDefault = true) (hj : judge e = .error err) :
    e.stations judge = [.barred e] := by
  rw [stations_eq, hd, hj]

theorem stations_foreign (hd : e.isDefault = false) : e.stations judge = [.barred e] := by
  rw [stations_eq, hd]

theorem stationsWithin_foreign (hd : e.isDefault = false) : e.stationsWithin judge = [.barred e] := by
  unfold stationsWithin
  rw [hd]

theorem stationsWithin_other (hd : e.isDefault = true) (hk : e.kind = .other) :
    e.stationsWithin judge = [] := by
  unfold stationsWithin
  rw [hd, hk]

theorem stationsWithin_beans (hd : e.isDefault = true) (hk : e.kind = .beans) :
    e.stationsWithin judge = e.stations judge := by
  unfold stationsWithin
  rw [hd, hk]

theorem stationsWithin_active (hd : e.isDefault = true)
    (hk : e.kind = .aliasing ∨ e.kind = .bean ∨ e.kind = .importing) :
    e.stationsWithin judge = [.active e] := by
  unfold stationsWithin
  rcases hk with hk | hk | hk <;> rw [hd, hk]

theorem sizeOf_child {c : Element} (h : c ∈ e.children) : sizeOf c < sizeOf e := by
  obtain ⟨tag, uri, attributes, contents, line⟩ := e
  obtain ⟨content, hm, hc⟩ := List.mem_filterMap.mp h
  cases content with
  | text => cases hc
  | element x =>
    obtain rfl : x = c := Option.some.inj hc
    have hsize := List.sizeOf_lt_of_mem hm
    simp only [Element.mk.sizeOf_spec, Content.element.sizeOf_spec] at hsize ⊢
    omega

theorem child_ne {c : Element} (h : c ∈ e.children) : c ≠ e := by
  rintro rfl
  exact absurd (sizeOf_child h) (lt_irrefl _)

end Element

/-- The problems of a journal and its events, apart from those of the defaults of scopes. -/
def outcomes (journal : List JournalEntry) : List JournalEntry := journal.filter (·.own)

/-- What an alias or a bean tells: its event if no error names it, and errors alone if one does. The
other errors name its children. -/
structure Resource.Settles (r : Resource) (e : Element) (told : List JournalEntry) : Prop where
  unblamed (h : ∀ entry ∈ told, ¬ r.Blames e entry) :
    ∃ event, r.Announces e event ∧ eventsOf told = [event]
  blamed (h : ∃ entry ∈ told, r.Blames e entry) : eventsOf told = []
  errors : ∀ entry ∈ told, (∀ event, entry ≠ .event event) →
    ∃ x, (x = e ∨ x ∈ e.children) ∧ r.Blames x entry

def Loader.stationsAt (l : Loader) (document : Resource × Element) : List (Resource × Station) :=
  (document.2.stations (l.documents.judge l.environment)).map (document.1, ·)

/-- The outcomes of the stations of documents, one after the other, as a whole or up to a failure. Those
of the documents that an import loads come before the event of the import. -/
inductive Loader.Outcomes (l : Loader) :
    (whole : Bool) → List (Resource × Station) → List JournalEntry → Prop
  | done : Outcomes l true [] []
  | unread (stations : List (Resource × Station)) : Outcomes l false stations []
  | barred {whole : Bool} {r : Resource} {e : Element} {stations : List (Resource × Station)}
      {own : JournalEntry} {rest : List JournalEntry} (ho : r.Blames e own)
      (h : Outcomes l whole stations rest) :
      Outcomes l whole ((r, .barred e) :: stations) (own :: rest)
  | settled {whole : Bool} {r : Resource} {e : Element} {stations : List (Resource × Station)}
      {own rest : List JournalEntry} (hk : e.kind = .aliasing ∨ e.kind = .bean) (ho : r.Settles e own)
      (h : Outcomes l whole stations rest) :
      Outcomes l whole ((r, .active e) :: stations) (own ++ rest)
  | blank {whole : Bool} {r : Resource} {e : Element} {stations : List (Resource × Station)}
      {own : JournalEntry} {rest : List JournalEntry} (hk : e.kind = .importing)
      (hb : Text.allBlank (e.attr "resource") = true) (ho : r.Blames e own)
      (h : Outcomes l whole stations rest) :
      Outcomes l whole ((r, .active e) :: stations) (own :: rest)
  | imported {whole : Bool} {r : Resource} {e : Element} {stations : List (Resource × Station)}
      {documents : List (Resource × Element)} {location : String} {resources : List Resource}
      {warning : Option Problem} {inside rest : List JournalEntry} (hk : e.kind = .importing)
      (hb : Text.allBlank (e.attr "resource") = false) (hd : ∀ d ∈ documents, l.Document d.1 d.2)
      (hi : Outcomes l true (documents.flatMap l.stationsAt) inside)
      (hw : ∀ p ∈ warning, p.element = some e ∧ p.resource = some r.description)
      (h : Outcomes l whole stations rest) :
      Outcomes l whole ((r, .active e) :: stations)
        (inside ++ (warning.toList.map (.problem .warning) ++
          .event (.imported location resources (r.sourceOf e)) :: rest))
  | failed {whole read : Bool} {r : Resource} {e : Element} {stations : List (Resource × Station)}
      {documents : List (Resource × Element)} {location : String} {resources : List Resource}
      {own : JournalEntry} {inside rest : List JournalEntry} (hk : e.kind = .importing)
      (hb : Text.allBlank (e.attr "resource") = false) (hd : ∀ d ∈ documents, l.Document d.1 d.2)
      (hi : Outcomes l read (documents.flatMap l.stationsAt) inside) (ho : r.Blames e own)
      (h : Outcomes l whole stations rest) :
      Outcomes l whole ((r, .active e) :: stations)
        (inside ++ own :: .event (.imported location resources (r.sourceOf e)) :: rest)
  | escaped {read : Bool} {r : Resource} {e : Element} {stations : List (Resource × Station)}
      {documents : List (Resource × Element)} {inside : List JournalEntry} (hk : e.kind = .importing)
      (hd : ∀ d ∈ documents, l.Document d.1 d.2)
      (hi : Outcomes l read (documents.flatMap l.stationsAt) inside) :
      Outcomes l false ((r, .active e) :: stations) inside

theorem Resource.Answers.settles {r : Resource} {e : Element} {told : List JournalEntry}
    (h : r.Answers e told) : r.Settles e told := by
  have hnone {errors : List JournalEntry} (he : ∀ entry ∈ errors, ∃ x, r.Blames x entry) :
      eventsOf errors = [] := by
    refine List.filterMap_eq_nil_iff.mpr fun entry hm => ?_
    obtain ⟨x, hx⟩ := he entry hm
    cases hx
    rfl
  cases h with
  | refused hm he hall =>
    have hevents : eventsOf told = [] := hnone fun entry hm => (hall entry hm).imp fun _ h => h.2
    exact ⟨fun hno => absurd he (hno _ hm), fun _ => hevents, fun entry hm _ => hall entry hm⟩
  | @announced errors event he hall =>
    have hevents : eventsOf (errors ++ [.event event]) = [event] := by
      rw [eventsOf_append, hnone fun entry hm => (hall entry hm).imp fun _ h => h.2]
      rfl
    refine ⟨fun _ => ⟨event, he, hevents⟩, ?_, fun entry hm hne => ?_⟩
    · rintro ⟨entry, hm, hblamed⟩
      rcases List.mem_append.mp hm with hm | hm
      · obtain ⟨c, hc, hchild⟩ := hall entry hm
        -- an error names one element only
        cases hblamed with
        | intro p hp _ =>
          cases hchild with
          | intro _ hp' _ => exact absurd (Option.some.inj (hp'.symm.trans hp)) (Element.child_ne hc)
      · rw [List.mem_singleton.mp hm] at hblamed
        cases hblamed
    · rcases List.mem_append.mp hm with hm | hm
      · obtain ⟨c, hc, hchild⟩ := hall entry hm
        exact ⟨c, .inr hc, hchild⟩
      · exact absurd (List.mem_singleton.mp hm) (hne event)

section

variable {first rest : List JournalEntry} {entry : JournalEntry}

theorem outcomes_append (first rest : List JournalEntry) :
    outcomes (first ++ rest) = outcomes first ++ outcomes rest := List.filter_append ..

theorem outcomes_own (h : ∀ entry ∈ first, entry.own = true) : outcomes first = first :=
  List.filter_eq_self.mpr h

theorem outcomes_blamed {r : Resource} {e : Element} (h : r.Blames e entry) :
    outcomes [entry] = [entry] := outcomes_own fun _ hm => List.mem_singleton.mp hm ▸ h.own

theorem outcomes_import (inside : List JournalEntry) {own : List JournalEntry} {location : String}
    {resources : List Resource} {source : SourceLocation} (h : ∀ entry ∈ own, entry.own = true) :
    outcomes (inside ++ (own ++ [.event (.imported location resources source)])) =
      outcomes inside ++ (own ++ [.event (.imported location resources source)]) := by
  rw [outcomes_append, outcomes_append own, outcomes_own h]
  rfl

theorem outcomes_scope (values : ScopeDefaults) (source : SourceLocation) (e : Element)
    (inside : List JournalEntry) (whole : Bool) :
    outcomes (.event (.defaults values source) :: .opened e ::
      (inside ++ if whole then [.closed e] else [])) = outcomes inside := by
  change outcomes (inside ++ _) = _
  rw [outcomes_append]
  cases whole <;> exact List.append_nil _

theorem outcomes_load (q : Resource) (completed : Bool) (inside rest : List JournalEntry) :
    outcomes (.began q :: (inside ++ .ended q completed :: rest)) = outcomes inside ++ outcomes rest :=
  outcomes_append inside (.ended q completed :: rest)

theorem outcomes_course (journal : List JournalEntry) :
    outcomes (course journal) = outcomes journal := by
  unfold outcomes course
  rw [List.filter_filter]
  congr 1
  funext entry
  rcases entry with _ | ⟨_ | _ | _ | _⟩ <;> rfl

end

namespace Loader

variable {l : Loader} {whole : Bool} {stations more : List (Resource × Station)}
  {first rest : List JournalEntry}

namespace Outcomes

theorem append (hfirst : l.Outcomes true stations first) (hrest : l.Outcomes whole more rest) :
    l.Outcomes whole (stations ++ more) (first ++ rest) := by
  generalize hw : true = read at hfirst
  induction hfirst with
  | done => exact hrest
  | unread | escaped => cases hw
  | barred ho _ ih => exact .barred ho (ih hw)
  | settled hk ho _ ih =>
    rw [List.append_assoc]
    exact .settled hk ho (ih hw)
  | blank hk hb ho _ ih => exact .blank hk hb ho (ih hw)
  | imported hk hb hd hi hp _ _ ih =>
    rw [List.append_assoc, List.append_assoc]
    exact .imported hk hb hd hi hp (ih hw)
  | failed hk hb hd hi ho _ _ ih =>
    rw [List.append_assoc]
    exact .failed hk hb hd hi ho (ih hw)

theorem cut (h : l.Outcomes false stations first) (more : List (Resource × Station)) :
    l.Outcomes false (stations ++ more) first := by
  generalize hw : false = read at h
  induction h with
  | done => cases hw
  | unread => exact .unread _
  | barred ho _ ih => exact .barred ho (ih hw)
  | settled hk ho _ ih => exact .settled hk ho (ih hw)
  | blank hk hb ho _ ih => exact .blank hk hb ho (ih hw)
  | imported hk hb hd hi hp _ _ ih => exact .imported hk hb hd hi hp (ih hw)
  | failed hk hb hd hi ho _ _ ih => exact .failed hk hb hd hi ho (ih hw)
  | escaped hk hd hi => exact .escaped hk hd hi

end Outcomes

def Settles (l : Loader) (r : Resource) : Part → (whole : Bool) → List JournalEntry → Prop
  | .scope _ e, whole, told => l.Outcomes whole (l.stationsAt (r, e)) told
  | .contents _ contents, whole, told =>
    l.Outcomes whole
      ((Element.stationsIn (l.documents.judge l.environment) contents).map (r, ·)) told
  | .element _ e, whole, told =>
    l.Outcomes whole ((e.stationsWithin (l.documents.judge l.environment)).map (r, ·)) told
  | .documents, whole, told => ∃ (documents : List (Resource × Element)) (read : Bool),
    (∀ d ∈ documents, l.Document d.1 d.2) ∧ (whole = true → read = true) ∧
      l.Outcomes read (documents.flatMap l.stationsAt) told

theorem Course.settles {r : Resource} {part : Part} {journal : List JournalEntry}
    (h : l.Course r part whole journal) : l.Settles r part whole (outcomes journal) := by
  induction h with
  | @accepted r _ e whole inside hd hj _ ih =>
    rw [outcomes_scope]
    dsimp only [Settles, stationsAt]
    rw [Element.stations_accepted hd hj]
    exact ih
  | @foreign r outer e own hd ho =>
    have hown : outcomes [.event (.defaults (outer.enter e).resolve (r.sourceOf e)), .opened e, own,
        .closed e] = [own] := (outcomes_scope _ _ e [own] true).trans (outcomes_blamed ho)
    rw [hown]
    dsimp only [Settles, stationsAt]
    rw [Element.stations_foreign hd]
    exact .barred ho .done
  | rejected hd hj =>
    dsimp only [Settles, stationsAt]
    rw [Element.stations_rejected hd hj]
    exact .done
  | invalid hd hj ho =>
    rw [outcomes_blamed ho]
    dsimp only [Settles, stationsAt]
    rw [Element.stations_invalid hd hj]
    exact .barred ho .done
  | nothing =>
    dsimp only [Settles]
    rw [Element.stationsIn]
    exact .done
  | text _ ih =>
    dsimp only [Settles]
    rw [Element.stationsIn]
    exact ih
  | next _ _ ihfirst ihback =>
    rw [outcomes_append]
    dsimp only [Settles]
    rw [Element.stationsIn_element, List.map_append]
    exact ihfirst.append ihback
  | last _ ih =>
    dsimp only [Settles]
    rw [Element.stationsIn_element, List.map_append]
    exact ih.cut _
  | custom hd ho =>
    rw [outcomes_blamed ho]
    dsimp only [Settles]
    rw [Element.stationsWithin_foreign hd]
    exact .barred ho .done
  | other hd hk =>
    dsimp only [Settles]
    rw [Element.stationsWithin_other hd hk]
    exact .done
  | nested hd hk _ ih =>
    dsimp only [Settles]
    rw [Element.stationsWithin_beans hd hk]
    exact ih
  | @answered r _ e own hd hk ho =>
    dsimp only [Settles]
    rw [Element.stationsWithin_active hd (hk.imp id .inl), outcomes_own ho.own, ← List.append_nil own]
    exact .settled hk ho.settles .done
  | blank hd hk hb ho =>
    dsimp only [Settles]
    rw [Element.stationsWithin_active hd (.inr (.inr hk)), outcomes_blamed ho]
    exact .blank hk hb ho .done
  | @imported _ _ _ _ _ warning inside hd hk hb _ hw _ ih =>
    obtain ⟨documents, read, hdocuments, hread, hi⟩ := ih
    rw [hread rfl] at hi
    dsimp only [Settles]
    rw [Element.stationsWithin_active hd (.inr (.inr hk)),
      outcomes_import inside (warnings_own warning)]
    exact .imported hk hb hdocuments hi hw .done
  | @failed _ _ _ _ _ _ own inside hd hk hb _ ho _ ih =>
    obtain ⟨documents, read, hdocuments, -, hi⟩ := ih
    have hown : ∀ entry ∈ [own], entry.own = true := List.forall_mem_singleton.mpr ho.own
    dsimp only [Settles]
    change l.Outcomes true _ (outcomes (inside ++ ([own] ++ _)))
    rw [Element.stationsWithin_active hd (.inr (.inr hk)), outcomes_import inside hown]
    exact .failed hk hb hdocuments hi ho .done
  | raised hd hk _ ih =>
    obtain ⟨documents, read, hdocuments, -, hi⟩ := ih
    dsimp only [Settles]
    rw [Element.stationsWithin_active hd (.inr (.inr hk))]
    exact .escaped hk hdocuments hi
  | done => exact ⟨[], true, List.forall_mem_nil _, fun _ => rfl, .done⟩
  | @load _ q root _ inside rest hd _ _ ihinside ihrest =>
    obtain ⟨documents, read, hdocuments, hread, hi⟩ := ihrest
    rw [outcomes_load]
    refine ⟨(q, root) :: documents, read, List.forall_mem_cons.mpr ⟨hd, hdocuments⟩, hread, ?_⟩
    rw [List.flatMap_cons]
    exact Outcomes.append ihinside hi
  | refused | unread => exact ⟨[], true, List.forall_mem_nil _, nofun, .done⟩
  | @cut _ q root inside hd _ ih =>
    refine ⟨[(q, root)], false, List.forall_mem_singleton.mpr hd, nofun, ?_⟩
    rw [outcomes_load, List.flatMap_singleton]
    exact (List.append_nil (outcomes inside)).symm ▸ ih

/-- In a run that raises nothing every element that is read has its outcome, and each event and problem
is part of one. -/
theorem elements_settled (hr : l.reporter = .collecting) (hl : l.listening = true)
    (hh : l.documents.handlers = []) {depth n : Nat} {root : Element} {r : Resource} {s t : Session}
    (h : l.registerDocument (l.importer depth) root r s = (.ok n, t)) :
    ∃ journal, s.Entered journal t ∧ l.Outcomes true (l.stationsAt (r, root)) (outcomes journal) := by
  obtain ⟨journal, hj, hcourse⟩ :=
    registerDocument_runs (r := r) hr hl hh (importer_tells hr hl hh depth) root s
  rw [h] at hj hcourse
  have hsettled := hcourse.settles
  rw [outcomes_course] at hsettled
  exact ⟨journal, hj, hsettled⟩

end Loader

def mixedRoot : Element :=
  ⟨"beans", none, [],
    [.element ⟨"bean", none, [("id", "a"), ("class", "A")],
        [.element ⟨"property", none, [], [], some 2⟩], some 1⟩,
      .element ⟨"alias", none, [("name", "a"), ("alias", "x")], [], some 3⟩,
      .element ⟨"alias", none, [("name", " ")], [], some 4⟩,
      .element ⟨"beans", none, [],
        [.element ⟨"import", none, [("resource", "b.xml")], [], some 6⟩], some 5⟩,
      .element ⟨"import", none, [("resource", " ")], [], some 7⟩,
      .element ⟨"task", some "urn:x", [], [], some 8⟩], some 0⟩

def mixedFile : Resource := .ofFile nestedLoader.workspace "a.xml"

def mixedRun : Except Failure Nat × Session :=
  nestedLoader.registerDocument (nestedLoader.importer 1) mixedRoot mixedFile {}

def JournalEntry.brief : JournalEntry → Option (String × Option Int)
  | .problem _ p => some ("problem", p.element.bind (·.line))
  | .event (.aliased _ _ source) => some ("alias", source.line)
  | .event (.component _ source) => some ("bean", source.line)
  | .event (.imported _ _ source) => some ("import", source.line)
  | _ => none

theorem mixedRoot_settled :
    nestedLoader.reporter = .collecting ∧ nestedLoader.documents.handlers = [] ∧
      mixedRun.1.toBool = true ∧
      mixedRun.2.journal.filterMap (·.brief) =
        [("problem", some 2), ("bean", some 1), ("alias", some 3), ("problem", some 4),
          ("problem", some 4), ("bean", some 1), ("problem", some 1), ("import", some 6),
          ("problem", some 7), ("problem", some 8)] ∧
      nestedLoader.Outcomes true (nestedLoader.stationsAt (mixedFile, mixedRoot))
        (outcomes mixedRun.2.journal) := by
  obtain ⟨hok, hbrief⟩ : mixedRun.1.toBool = true ∧
      mixedRun.2.journal.filterMap (·.brief) =
        [("problem", some 2), ("bean", some 1), ("alias", some 3), ("problem", some 4),
          ("problem", some 4), ("bean", some 1), ("problem", some 1), ("import", some 6),
          ("problem", some 7), ("problem", some 8)] := by
    decide +kernel
  refine ⟨rfl, rfl, hok, hbrief, ?_⟩
  rcases hrun : mixedRun with ⟨f | n, t⟩
  · rw [hrun] at hok
    cases hok
  · obtain ⟨journal, hj, hsettled⟩ := Loader.elements_settled (l := nestedLoader) rfl rfl rfl hrun
    have hjournal : t.journal = journal := hj.journal
    rw [hjournal]
    exact hsettled

end BeanCatalog
