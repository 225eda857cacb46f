namespace BeanCatalog

abbrev Table (α : Type) := List (String × α)

namespace Table

variable {α : Type}

def get? (t : Table α) (k : String) : Option α := t.lookup k

def has (t : Table α) (k : String) : Bool := (t.get? k).isSome

/-- A key that is there keeps its place; a new one goes to the end. -/
def put : Table α → String → α → Table α
  | [], k, v => [(k, v)]
  | (k', v') :: t, k, v => if k = k' then (k, v) :: t else (k', v') :: put t k v

def erase : Table α → String → Table α
  | [], _ => []
  | (k', v') :: t, k => if k = k' then erase t k else (k', v') :: erase t k

def keys (t : Table α) : List String := t.map Prod.fst

def ofList (l : List (String × α)) : Table α := l.foldl (fun t (k, v) => t.put k v) []

@[simp] theorem get?_nil (k : String) : get? ([] : Table α) k = none := rfl

theorem get?_cons (k k' : String) (v : α) (t : Table α) :
    get? ((k', v) :: t) k = if k = k' then some v else get? t k := by
  by_cases h : k = k'
  · simp [get?, h]
  · simp only [get?, List.lookup_cons, beq_false_of_ne h, if_neg h]

theorem get?_put (t : Table α) (k k' : String) (v : α) :
    (t.put k v).get? k' = if k' = k then some v else t.get? k' := by
  induction t with
  | nil => simp [put, get?_cons]
  | cons p t ih =>
    obtain ⟨a, b⟩ := p
    by_cases h : k = a
    · subst h
      by_cases h' : k' = k <;> simp [put, get?_cons, h']
    · by_cases h' : k' = a
      · subst h'
        simp [put, h, get?_cons, Ne.symm h]
      · simp [put, h, get?_cons, h', ih]

theorem get?_erase (t : Table α) (k k' : String) :
    (t.erase k).get? k' = if k' = k then none else t.get? k' := by
  induction t with
  | nil => simp [erase]
  | cons p t ih =>
    obtain ⟨a, b⟩ := p
    by_cases h : k = a
    · subst h
      by_cases h' : k' = k <;> simp_all [erase, get?_cons]
    · by_cases h' : k' = a
      · subst h'
        simp [erase, h, get?_cons, Ne.symm h]
      · simp [erase, h, get?_cons, h', ih]

theorem keys_put (t : Table α) (k : String) (v : α) :
    (t.put k v).keys = if k ∈ t.keys then t.keys else t.keys ++ [k] := by
  induction t with
  | nil => simp [put, keys]
  | cons p t ih =>
    obtain ⟨a, b⟩ := p
    by_cases h : k = a
    · simp [put, keys, h]
    · have ih : List.map Prod.fst (put t k v) =
          if k ∈ List.map Prod.fst t then List.map Prod.fst t else List.map Prod.fst t ++ [k] := ih
      by_cases h' : k ∈ List.map Prod.fst t <;>
        simp only [put, keys, h, if_false, List.map_cons, ih, h', if_true, List.mem_cons, or_false,
          or_true, List.cons_append]

theorem mem_keys_iff {t : Table α} {k : String} : k ∈ t.keys ↔ t.has k = true := by
  induction t with
  | nil => simp [keys, has]
  | cons p t ih =>
    obtain ⟨a, b⟩ := p
    have ih : k ∈ List.map Prod.fst t ↔ (get? t k).isSome = true := ih
    by_cases h : k = a <;> simp [keys, has, get?_cons, h, ih]

theorem keys_erase (t : Table α) (k : String) : (t.erase k).keys = t.keys.filter (· ≠ k) := by
  induction t with
  | nil => rfl
  | cons p t ih =>
    obtain ⟨a, b⟩ := p
    have ih : List.map Prod.fst (erase t k) = (List.map Prod.fst t).filter (· ≠ k) := ih
    by_cases h : k = a
    · subst h
      simp [erase, keys, ih]
    · simp [erase, keys, h, Ne.symm h, ih]

theorem nodup_keys_put {t : Table α} (h : t.keys.Nodup) (k : String) (v : α) :
    (t.put k v).keys.Nodup := by
  rw [keys_put]
  split
  · exact h
  next hk =>
    refine List.nodup_append.mpr ⟨h, by simp, ?_⟩
    rintro a ha b hb rfl
    exact hk (List.mem_singleton.mp hb ▸ ha)

theorem nodup_keys_erase {t : Table α} (h : t.keys.Nodup) (k : String) : (t.erase k).keys.Nodup := by
  rw [keys_erase]
  exact h.filter _

end Table

end BeanCatalog
