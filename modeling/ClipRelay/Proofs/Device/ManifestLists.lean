import ClipRelay.Device.Manifest

/-!
# ClipRelay.Proofs.Device.ManifestLists

The list that a manifest holds, as a function of everything that was ever recorded.

To record an item is to take out what has its id, to put the item in front and to cut the
list.  Done over and over, this comes to one thing (`Manifest.newest`): of all items, newest
first, each id counts once, and the first of these are kept.  That the list was cut every time
does not show (`record_newest`).  An item that was taken out leaves a gap, but what is kept
behind the new item is one less than the list had before (`take_filter_take`).
-/

namespace ClipRelay

namespace Manifest

/-- The items of a list, each id once, where the first item of an id stands for it. -/
def distinct : List ManifestEntry → List ManifestEntry
  | [] => []
  | i :: is => i :: (distinct is).filter fun j => j.id ≠ i.id

/-- The first `n` items of a list, where each id counts once. -/
def newest (n : Nat) (items : List ManifestEntry) : List ManifestEntry := (distinct items).take n

/-! ## Each id once -/

theorem distinct_sublist (items : List ManifestEntry) : (distinct items).Sublist items := by
  induction items with
  | nil => exact .slnil
  | cons i is ih => exact (List.filter_sublist.trans ih).cons_cons i

theorem nodup_distinct (items : List ManifestEntry) : ((distinct items).map (·.id)).Nodup := by
  induction items with
  | nil => exact .nil
  | cons i is ih =>
      rw [distinct, List.map_cons, List.nodup_cons]
      refine ⟨fun hmem => ?_, ih.sublist (List.filter_sublist.map _)⟩
      obtain ⟨j, hj, hid⟩ := List.mem_map.mp hmem
      exact of_decide_eq_true (List.mem_filter.mp hj).2 hid

/-- Nothing has the id of the first item but that item. -/
theorem filter_ne_of_nodup {i : ManifestEntry} {is : List ManifestEntry}
    (h : ((i :: is).map (·.id)).Nodup) : (is.filter fun j => j.id ≠ i.id) = is := by
  rw [List.map_cons, List.nodup_cons] at h
  refine List.filter_eq_self.mpr fun j hj => decide_eq_true fun hid => h.1 ?_
  exact List.mem_map.mpr ⟨j, hj, hid⟩

theorem distinct_of_nodup {items : List ManifestEntry} (h : (items.map (·.id)).Nodup) :
    distinct items = items := by
  induction items with
  | nil => rfl
  | cons i is ih =>
      rw [distinct, ih (List.nodup_cons.mp h).2, filter_ne_of_nodup h]

theorem newest_of_nodup {n : Nat} {items : List ManifestEntry} (h : (items.map (·.id)).Nodup) :
    newest n items = items.take n := by
  rw [newest, distinct_of_nodup h]

theorem mem_of_mem_newest {n : Nat} {i : ManifestEntry} {items : List ManifestEntry}
    (h : i ∈ newest n items) : i ∈ items :=
  (distinct_sublist items).subset (List.mem_of_mem_take h)

/-- To take items out by their id and to let each id count once can be done in either order. -/
theorem filter_distinct (keep : String → Bool) (items : List ManifestEntry) :
    (distinct items).filter (fun j => keep j.id) = distinct (items.filter fun j => keep j.id) := by
  induction items with
  | nil => rfl
  | cons i is ih =>
      rw [distinct, List.filter_cons, List.filter_cons]
      by_cases hkeep : keep i.id
      · rw [if_pos hkeep, if_pos hkeep, distinct, ← ih, List.filter_filter, List.filter_filter]
        simp only [Bool.and_comm]
      · -- what goes with `i` goes anyway
        rw [if_neg hkeep, if_neg hkeep, ← ih, List.filter_filter]
        refine List.filter_congr fun j _ => ?_
        by_cases hid : j.id = i.id <;> simp [hid, hkeep]

/-- To let each id count once is to erase what has the id of an item before it. -/
theorem distinct_eq_eraseDupsBy (items : List ManifestEntry) :
    distinct items = items.eraseDupsBy fun i j => i.id == j.id := by
  induction hn : items.length using Nat.strongRecOn generalizing items with
  | ind n ih =>
      cases items with
      | nil => rfl
      | cons i is =>
          have hfilter := filter_distinct (fun id => decide (id ≠ i.id)) is
          have hless : (is.filter fun j => decide (j.id ≠ i.id)).length < n :=
            hn ▸ Nat.lt_succ_of_le (List.length_filter_le _ is)
          rw [distinct, hfilter, ih _ hless _ rfl, List.eraseDupsBy_cons]
          simp only [ne_eq, decide_not, beq_eq_false_iff_ne]

/-! ## Cutting -/

/-- Of a list without repeated ids one id is taken out, so that one item more is enough for
what is left. -/
theorem take_filter_take {items : List ManifestEntry} (h : (items.map (·.id)).Nodup) (id : String)
    (n : Nat) : ((items.take (n + 1)).filter fun j => j.id ≠ id).take n =
      (items.filter fun j => j.id ≠ id).take n := by
  induction items generalizing n with
  | nil => rfl
  | cons i is ih =>
      rw [List.take_succ_cons]
      by_cases hid : i.id = id
      · subst hid
        have hcut : ((i :: is.take n).map (·.id)).Nodup :=
          h.sublist ((List.take_sublist (n + 1) (i :: is)).map _)
        simp only [List.filter_cons, ne_eq, not_true_eq_false, decide_false, Bool.false_eq_true,
          if_false]
        rw [filter_ne_of_nodup hcut, filter_ne_of_nodup h, List.take_take, Nat.min_self]
      · cases n with
        | zero => rfl
        | succ n =>
            have hne : decide (i.id ≠ id) = true := decide_eq_true hid
            simp only [List.filter_cons, hne, if_true, List.take_succ_cons]
            rw [ih (List.nodup_cons.mp h).2 n]

/-- What follows a new item comes from the first items of the list before. -/
theorem newest_cons (n : Nat) (i : ManifestEntry) (items : List ManifestEntry) :
    newest (n + 1) (i :: items) =
      i :: ((newest (n + 1) items).filter fun j => j.id ≠ i.id).take n := by
  rw [newest, distinct, List.take_succ_cons, newest, take_filter_take (nodup_distinct items)]

/-! ## Recording -/

/-- How many items a manifest keeps that is limited to `capacity`. -/
def bound (capacity : Nat) : Nat := max minCapacity (min capacity maxCapacity)

/-- To record an item in a list that was cut before is to cut the whole list with that item. -/
theorem record_newest (capacity : Nat) (item : ManifestEntry) (room : String)
    (items : List ManifestEntry) :
    record capacity item ⟨room, newest (bound capacity) items⟩ =
      ⟨room, newest (bound capacity) (item :: items)⟩ := by
  obtain ⟨n, hn⟩ : ∃ n, bound capacity = n + 1 :=
    Nat.exists_eq_add_of_le' (Nat.le_max_left minCapacity _)
  rw [record, ← bound, hn, newest_cons, List.take_succ_cons]

/-- A manifest after some items were recorded in it, one after the other. -/
def recordAll (capacity : Nat) (items : List ManifestEntry) (m : Manifest) : Manifest :=
  items.foldl (fun m item => m.record capacity item) m

/-- To record one item after the other is to cut all of them, newest first, once. -/
theorem recordAll_newest (capacity : Nat) (items : List ManifestEntry) (room : String)
    (log : List ManifestEntry) :
    recordAll capacity items ⟨room, newest (bound capacity) log⟩ =
      ⟨room, newest (bound capacity) (items.reverse ++ log)⟩ := by
  induction items generalizing log with
  | nil => rfl
  | cons item items ih =>
      rw [recordAll, List.foldl_cons, record_newest]
      rw [List.reverse_cons, List.append_assoc]
      exact ih (item :: log)

/-- **What a manifest lists**: from an empty manifest, what is left of any items that were
recorded one after the other are the first of them, newest first, where each id counts once
and the newest item of an id stands for it.  And whatever a manifest lists, a new item goes in
front; behind it is a front of the list before without the items of its id, as long as the
limit allows. -/
theorem recorded_items (capacity : Nat) :
    (∀ room items, recordAll capacity items (empty room) =
      ⟨room, (items.reverse.eraseDupsBy fun i j => i.id == j.id).take
        (max 1 (min capacity 200))⟩) ∧
    ∀ (m : Manifest) (item : ManifestEntry),
      let most := max 1 (min capacity 200)
      let others := m.items.filter fun i => i.id ≠ item.id
      ∃ rest, m.record capacity item = ⟨m.roomId, item :: rest⟩ ∧
        (∀ i ∈ rest, i.id ≠ item.id) ∧ rest <+: others ∧
        (item :: rest).length ≤ most ∧ ((item :: rest).length < most → rest = others) := by
  refine ⟨fun room items => ?_, fun m item => ?_⟩
  · have hempty : empty room = ⟨room, newest (bound capacity) []⟩ :=
      congrArg (Manifest.mk room) List.take_nil.symm
    rw [hempty, recordAll_newest, List.append_nil, newest, distinct_eq_eraseDupsBy]
    rfl
  · intro most others
    obtain ⟨n, hn⟩ : ∃ n, most = n + 1 :=
      Nat.exists_eq_add_of_le' (Nat.le_max_left 1 _)
    have hrecord : m.record capacity item = ⟨m.roomId, item :: others.take n⟩ := by
      have hcut : m.record capacity item = ⟨m.roomId, (item :: others).take most⟩ := rfl
      rw [hcut, hn, List.take_succ_cons]
    refine ⟨others.take n, hrecord, fun i hi => ?_, List.take_prefix n others, ?_, fun hless => ?_⟩
    · exact of_decide_eq_true (List.mem_filter.mp (List.mem_of_mem_take hi)).2
    · rw [hn, List.length_cons]
      exact Nat.succ_le_succ (List.length_take_le n others)
    · rw [List.length_cons, List.length_take, hn] at hless
      exact List.take_of_length_le (by omega)

end Manifest

end ClipRelay
