/-!
# ClipRelay.Table

Finite maps in the order in which their keys came.

A table holds each key once.  The stores of the relay are tables; what an
operation does is said by the `get?` lemmas, and nothing else needs to know how
the entries lie.  Writing the value that is already there changes nothing
(`insert_self`), not even the order.
-/

namespace ClipRelay

/-- A finite map from `κ` to `α`. -/
structure Table (κ α : Type) where
  entries : List (κ × α)
  nodup_keys : (entries.map Prod.fst).Nodup

namespace Table

variable {κ α : Type} [DecidableEq κ]

instance : EmptyCollection (Table κ α) := ⟨⟨[], by simp⟩⟩
instance : Inhabited (Table κ α) := ⟨∅⟩

/-! ## Entry lists -/

/-- The value at a key in a list of entries. -/
def find? (k : κ) : List (κ × α) → Option α
  | [] => none
  | e :: es => if e.1 = k then some e.2 else find? k es

/-- The entries with the value at a key replaced, or added at the end. -/
def put (k : κ) (v : α) : List (κ × α) → List (κ × α)
  | [] => [(k, v)]
  | e :: es => if e.1 = k then (k, v) :: es else e :: put k v es

/-- The entries without a key. -/
def remove (k : κ) (es : List (κ × α)) : List (κ × α) := es.filter fun e => e.1 ≠ k

theorem mem_keys_put {k : κ} {v : α} {es : List (κ × α)} {x : κ} :
    x ∈ (put k v es).map Prod.fst ↔ x = k ∨ x ∈ es.map Prod.fst := by
  induction es with
  | nil => simp [put]
  | cons e es ih =>
    by_cases h : e.1 = k
    · subst h; simp [put]
    · simp only [put, if_neg h, List.map_cons, List.mem_cons, ih]
      constructor <;> rintro (h | h | h) <;> simp [h]

theorem nodup_keys_put {k : κ} {v : α} {es : List (κ × α)} (h : (es.map Prod.fst).Nodup) :
    ((put k v es).map Prod.fst).Nodup := by
  induction es with
  | nil => simp [put]
  | cons e es ih =>
    rw [List.map_cons, List.nodup_cons] at h
    by_cases hk : e.1 = k
    · subst hk; simpa [put] using h
    · simp only [put, if_neg hk, List.map_cons, List.nodup_cons, mem_keys_put, not_or]
      exact ⟨⟨hk, h.1⟩, ih h.2⟩

theorem nodup_keys_remove {k : κ} {es : List (κ × α)} (h : (es.map Prod.fst).Nodup) :
    ((remove k es).map Prod.fst).Nodup :=
  h.sublist (List.filter_sublist.map _)

/-! ## Operations -/

/-- The value at a key. -/
def get? (t : Table κ α) (k : κ) : Option α := find? k t.entries

/-- The table with a value at a key. -/
def insert (t : Table κ α) (k : κ) (v : α) : Table κ α :=
  ⟨put k v t.entries, nodup_keys_put t.nodup_keys⟩

/-- The table without a key. -/
def erase (t : Table κ α) (k : κ) : Table κ α :=
  ⟨remove k t.entries, nodup_keys_remove t.nodup_keys⟩

/-- The table with the value at a key changed, if there is one. -/
def modify (t : Table κ α) (k : κ) (f : α → α) : Table κ α :=
  match t.get? k with
  | some v => t.insert k (f v)
  | none => t

/-- The keys of a table. -/
def keys (t : Table κ α) : List κ := t.entries.map Prod.fst

/-- The number of keys of a table. -/
def size (t : Table κ α) : Nat := t.entries.length

/-- Whether a table has no keys. -/
def isEmpty (t : Table κ α) : Bool := t.entries.isEmpty

/-! ## Laws of `get?` -/

@[simp] theorem get?_empty (k : κ) : (∅ : Table κ α).get? k = none := rfl

theorem find?_put {k k' : κ} {v : α} {es : List (κ × α)} :
    find? k' (put k v es) = if k = k' then some v else find? k' es := by
  induction es with
  | nil => simp [put, find?]
  | cons e es ih => by_cases h : e.1 = k <;> grind [put, find?]

theorem find?_remove {k k' : κ} {es : List (κ × α)} :
    find? k' (remove k es) = if k = k' then none else find? k' es := by
  induction es with
  | nil => simp [remove, find?]
  | cons e es ih => by_cases h : e.1 = k <;> grind [remove, find?]

theorem get?_insert (t : Table κ α) (k k' : κ) (v : α) :
    (t.insert k v).get? k' = if k = k' then some v else t.get? k' := find?_put

@[simp] theorem get?_insert_self (t : Table κ α) (k : κ) (v : α) :
    (t.insert k v).get? k = some v := by simp [get?_insert]

theorem get?_erase (t : Table κ α) (k k' : κ) :
    (t.erase k).get? k' = if k = k' then none else t.get? k' := find?_remove

theorem get?_modify (t : Table κ α) (k k' : κ) (f : α → α) :
    (t.modify k f).get? k' = if k = k' then (t.get? k').map f else t.get? k' := by
  unfold modify
  split <;> grind [get?_insert]

theorem put_self {k : κ} {v : α} {es : List (κ × α)} (h : find? k es = some v) :
    put k v es = es := by
  induction es with
  | nil => simp [find?] at h
  | cons e es ih =>
    by_cases hk : e.1 = k
    · obtain ⟨a, b⟩ := e; simp_all [find?, put]
    · simp_all [find?, put]

/-! ## Entries and keys -/

theorem find?_eq_some_iff {k : κ} {v : α} {es : List (κ × α)} (h : (es.map Prod.fst).Nodup) :
    find? k es = some v ↔ (k, v) ∈ es := by
  induction es with
  | nil => simp [find?]
  | cons e es ih =>
      obtain ⟨k', v'⟩ := e
      rw [List.map_cons, List.nodup_cons] at h
      by_cases hk : k' = k
      · subst hk
        have hnot : (k', v) ∉ es := fun hm => h.1 (List.mem_map.mpr ⟨_, hm, rfl⟩)
        simp [find?, hnot, eq_comm]
      · simp [find?, hk, ih h.2, Ne.symm hk]

/-- What is read off the value at a key, and off no other, is all that is read. -/
theorem filterMap_of_key {β : Type} {k : κ} {es : List (κ × α)} (h : (es.map Prod.fst).Nodup)
    (f : α → Option β) :
    (es.filterMap fun e => if e.1 = k then f e.2 else none) = ((find? k es).bind f).toList := by
  induction es with
  | nil => rfl
  | cons e es ih =>
      rw [List.map_cons, List.nodup_cons] at h
      by_cases hk : e.1 = k
      · have hothers : (es.filterMap fun e => if e.1 = k then f e.2 else none) = [] := by
          refine List.filterMap_eq_nil_iff.mpr fun e' he' => if_neg fun hk' => h.1 ?_
          rw [hk, ← hk']
          exact List.mem_map_of_mem he'
        rw [List.filterMap_cons, hothers, if_pos hk, find?, if_pos hk, Option.bind_some]
        cases f e.2 <;> rfl
      · rw [List.filterMap_cons, if_neg hk, ih h.2, find?, if_neg hk]

theorem mem_entries_iff {t : Table κ α} {k : κ} {v : α} :
    (k, v) ∈ t.entries ↔ t.get? k = some v :=
  (find?_eq_some_iff t.nodup_keys).symm

theorem mem_keys_iff {t : Table κ α} {k : κ} : k ∈ t.keys ↔ (t.get? k).isSome := by
  rw [keys, List.mem_map, Option.isSome_iff_exists]
  constructor
  · rintro ⟨⟨k', v⟩, hm, rfl⟩
    exact ⟨v, mem_entries_iff.mp hm⟩
  · rintro ⟨v, hv⟩
    exact ⟨(k, v), mem_entries_iff.mpr hv, rfl⟩

omit [DecidableEq κ] in
theorem length_keys (t : Table κ α) : t.keys.length = t.size := List.length_map _

/-- A table is empty if it has nothing at any key. -/
theorem isEmpty_iff {t : Table κ α} : t.isEmpty ↔ ∀ k, t.get? k = none := by
  rw [isEmpty, List.isEmpty_iff]
  constructor
  · intro h k
    rw [get?, h, find?]
  · intro h
    refine List.eq_nil_iff_forall_not_mem.mpr fun ⟨k, v⟩ hm => ?_
    have hv := mem_entries_iff.mp hm
    rw [h k] at hv
    contradiction

omit [DecidableEq κ] in
theorem eq_empty_of_isEmpty {t : Table κ α} (h : t.isEmpty) : t = ∅ := by
  obtain ⟨es, hes⟩ := t
  obtain rfl : es = [] := List.isEmpty_iff.mp h
  rfl

/-- Writing the value that is there changes nothing. -/
theorem insert_self {t : Table κ α} {k : κ} {v : α} (h : t.get? k = some v) : t.insert k v = t := by
  cases t; simp only [insert, mk.injEq]; exact put_self h

/-! ## Writing twice -/

theorem put_put (k : κ) (v w : α) (es : List (κ × α)) : put k w (put k v es) = put k w es := by
  induction es with
  | nil => simp only [put, if_true]
  | cons e es ih =>
      by_cases hk : e.1 = k
      · simp only [put, if_pos hk, if_true]
      · simp only [put, if_neg hk, ih]

theorem remove_put {k : κ} {es : List (κ × α)} (h : find? k es = none) (v : α) :
    remove k (put k v es) = es := by
  induction es with
  | nil => simp [put, remove]
  | cons e es ih =>
      by_cases hk : e.1 = k
      · rw [find?, if_pos hk] at h
        contradiction
      · rw [find?, if_neg hk] at h
        have hstays : decide (e.1 ≠ k) = true := decide_eq_true hk
        simp only [put, if_neg hk, remove, List.filter_cons, hstays, if_true]
        exact congrArg (List.cons e) (ih h)

/-- The last value written at a key counts. -/
theorem insert_insert (t : Table κ α) (k : κ) (v w : α) :
    (t.insert k v).insert k w = t.insert k w := by
  simp only [insert, put_put]

/-- A key that is new can be taken out again. -/
theorem erase_insert {t : Table κ α} {k : κ} (h : t.get? k = none) (v : α) :
    (t.insert k v).erase k = t := by
  cases t
  simp only [insert, erase, mk.injEq]
  exact remove_put h v

/-- Taking out a key that is not there changes nothing. -/
theorem erase_of_get?_eq_none {t : Table κ α} {k : κ} (h : t.get? k = none) : t.erase k = t := by
  have hkeys : ∀ e ∈ t.entries, decide (e.1 ≠ k) = true := by
    intro e he
    refine decide_eq_true fun hk => ?_
    have hv : t.get? e.1 = some e.2 := mem_entries_iff.mp he
    rw [hk, h] at hv
    cases hv
  cases t
  simp only [erase, mk.injEq]
  exact List.filter_eq_self.mpr hkeys

theorem modify_id (t : Table κ α) (k : κ) : t.modify k id = t := by
  cases h : t.get? k with
  | none => simp only [modify, h]
  | some v => simp only [modify, h, id_eq, insert_self h]

theorem modify_modify (t : Table κ α) (k : κ) (f g : α → α) :
    (t.modify k f).modify k g = t.modify k (g ∘ f) := by
  cases h : t.get? k with
  | none => simp only [modify, h]
  | some v => simp only [modify, h, get?_insert_self, insert_insert, Function.comp_apply]

end Table

end ClipRelay
