import ClipRelay.Relay.History
import Mathlib.Data.List.Perm.Subperm

/-!
# ClipRelay.Proofs.Relay.Log

The histories of rooms, as views of one log.

Items that are added to rooms, one after the other, make a log.  What a room
keeps is the newest part of what the log holds of it (`Histories.items_addAll`):
keeping a bounded list at each step comes to the same as keeping everything and
looking at the newest items in the end, since what is dropped on the way would
not be looked at (`take_append_take`).

The texts beside the items follow the log as well, though they are kept by id
and ids repeat (`RoomHistory.Reflects`).  A text is there for as long as items of
its id follow on one another among the newest (`Lasting`): no longer than some
item of its id, and at least as long as the item that it came with.  It is the
last text of its id that the log holds.
-/

namespace ClipRelay

/-- An item that is added to a room, with its text if it has one. -/
structure Addition where
  key : RoomKey
  item : HistoryItem
  text : Option String

namespace Histories

/-- Adds some items to their rooms, one after the other. -/
def addAll (h : Histories) (log : List Addition) : Histories :=
  log.foldl (fun h a => h.append a.key a.item a.text) h

/-- The items that a log adds to a room, oldest first. -/
def logged (key : RoomKey) (log : List Addition) : List HistoryItem :=
  (log.filter fun a => a.key = key).map (·.item)

theorem logged_cons (key : RoomKey) (a : Addition) (log : List Addition) :
    logged key (a :: log) = if a.key = key then a.item :: logged key log else logged key log := by
  by_cases hk : a.key = key
  · simp [logged, hk]
  · simp [logged, hk]

/-- What is dropped early would be dropped later anyway. -/
theorem take_append_take {α : Type} (n : Nat) (xs ys : List α) :
    (xs ++ ys.take n).take n = (xs ++ ys).take n := by
  rw [List.take_append, List.take_append, List.take_take, Nat.min_eq_left (Nat.sub_le n _)]

/-- An item that is added to a room comes first in it, and the oldest that no
longer fit are gone. -/
theorem items_append (h : Histories) (key key' : RoomKey) (item : HistoryItem)
    (text : Option String) :
    ((h.append key item text).room key').items =
      if key = key' then (item :: (h.room key').items).take h.capacity
      else (h.room key').items := by
  rw [room_append]
  split <;> rfl

/-- After some items were added, a room has the newest of all that it was given
and had before, as many as fit. -/
theorem items_addAll {h : Histories} {key : RoomKey}
    (hbounded : (h.room key).items.length ≤ h.capacity) (log : List Addition) :
    ((h.addAll log).room key).items =
      ((logged key log).reverse ++ (h.room key).items).take h.capacity := by
  induction log generalizing h with
  | nil => exact (List.take_of_length_le hbounded).symm
  | cons a log ih =>
      have hitems := items_append h a.key key a.item a.text
      have hcons : h.addAll (a :: log) = (h.append a.key a.item a.text).addAll log := rfl
      have hcapacity : (h.append a.key a.item a.text).capacity = h.capacity := rfl
      rw [hcons, logged_cons]
      by_cases hk : a.key = key
      · rw [if_pos hk] at hitems ⊢
        have hbounded' : ((h.append a.key a.item a.text).room key).items.length ≤ h.capacity := by
          rw [hitems]
          exact List.length_take_le _ _
        rw [ih hbounded', hitems, hcapacity, take_append_take, List.reverse_cons,
          List.append_assoc, List.singleton_append]
      · rw [if_neg hk] at hitems ⊢
        rw [← hitems] at hbounded ⊢
        exact ih hbounded

/-- A limit is a number between the shortest and the longest list. -/
theorem effectiveLimit_eq (limit : Int32) :
    effectiveLimit limit = (max 1 (min 100 limit.toInt)).toNat := by
  unfold effectiveLimit minLimit maxLimit
  omega

/-- **Histories are views of a log**: whatever was added to whichever rooms, and
however much the histories keep, the newest items of a room are the last that
were added to it, newest first, as many as are asked for and kept. -/
theorem recent_addAll (capacity : Nat) (log : List Addition) (key : RoomKey) (limit : Int32) :
    ((ofCapacity capacity).addAll log).recent key limit =
      (logged key log).reverse.take
        (min (max capacity 1) (max 1 (min 100 limit.toInt)).toNat) := by
  have hitems : ((ofCapacity capacity).room key).items = [] := rfl
  have hcapacity : (ofCapacity capacity).capacity = max capacity 1 := rfl
  have hbounded : ((ofCapacity capacity).room key).items.length ≤ (ofCapacity capacity).capacity :=
    Nat.zero_le _
  rw [recent, items_addAll hbounded log, hitems, List.append_nil, List.take_take, hcapacity,
    effectiveLimit_eq, Nat.min_comm]

end Histories

/-! ## Texts -/

/-- The text that was last added with an id, newest additions first. -/
def lastText (id : String) (additions : List Addition) : Option String :=
  additions.findSome? fun a => if a.item.id = id then a.text else none

theorem lastText_cons (id : String) (a : Addition) (additions : List Addition) :
    lastText id (a :: additions) =
      if a.item.id = id then a.text.or (lastText id additions) else lastText id additions := by
  by_cases hid : a.item.id = id
  · cases htext : a.text <;> simp [lastText, hid, htext]
  · simp [lastText, hid]

theorem exists_of_lastText {id t : String} {additions : List Addition}
    (h : lastText id additions = some t) :
    ∃ a ∈ additions, a.item.id = id ∧ a.text = some t := by
  obtain ⟨a, ha, htext⟩ := List.exists_of_findSome?_eq_some h
  by_cases hid : a.item.id = id
  · rw [if_pos hid] at htext
    exact ⟨a, ha, hid, htext⟩
  · rw [if_neg hid] at htext
    contradiction

/-- A text was added with an id, newest additions first, and ever since an item of
the id was among the newest, as many as fit. -/
def Lasting (capacity : Nat) (id : String) (additions : List Addition) : Prop :=
  ∃ later a earlier, additions = later ++ a :: earlier ∧ a.item.id = id ∧ a.text.isSome ∧
    ∀ since, since <:+ later → ∃ a' ∈ (since ++ a :: earlier).take capacity, a'.item.id = id

/-- A text lasts if an item of its id is retained, and it either came with the
newest item or lasted before. -/
theorem lasting_cons {capacity : Nat} {id : String} {a : Addition} {additions : List Addition} :
    Lasting capacity id (a :: additions) ↔
      (∃ a' ∈ (a :: additions).take capacity, a'.item.id = id) ∧
        (a.item.id = id ∧ a.text.isSome ∨ Lasting capacity id additions) := by
  constructor
  · rintro ⟨later, a', earlier, heq, hid, htext, hsince⟩
    refine ⟨?_, ?_⟩
    · rw [heq]
      exact hsince later List.suffix_rfl
    · cases later with
      | nil =>
          cases heq
          exact .inl ⟨hid, htext⟩
      | cons a later =>
          cases heq
          exact .inr ⟨later, a', earlier, rfl, hid, htext, fun since hs =>
            hsince since (List.suffix_cons_iff.mpr (.inr hs))⟩
  · rintro ⟨hretained, ⟨hid, htext⟩ | ⟨later, a', earlier, rfl, hid, htext, hsince⟩⟩
    · refine ⟨[], a, additions, rfl, hid, htext, fun since hs => ?_⟩
      rw [List.suffix_nil.mp hs]
      exact hretained
    · refine ⟨a :: later, a', earlier, rfl, hid, htext, fun since hs => ?_⟩
      obtain rfl | hs := List.suffix_cons_iff.mp hs
      · exact hretained
      · exact hsince since hs

theorem not_lasting_nil {capacity : Nat} {id : String} : ¬Lasting capacity id [] := by
  rintro ⟨later, a, earlier, heq, -⟩
  simp at heq

/-- A text lasts no longer than the items of its id. -/
theorem Lasting.exists_retained {capacity : Nat} {id : String} {additions : List Addition}
    (h : Lasting capacity id additions) :
    ∃ a ∈ additions.take capacity, a.item.id = id := by
  cases additions with
  | nil => exact absurd h not_lasting_nil
  | cons a additions => exact (lasting_cons.mp h).1

/-- A text lasts at least as long as the item that it came with. -/
theorem lasting_of_retained {capacity : Nat} {a : Addition} {additions : List Addition}
    (ha : a ∈ additions.take capacity) (htext : a.text.isSome) :
    Lasting capacity a.item.id additions := by
  induction additions with
  | nil => simp at ha
  | cons newest additions ih =>
      refine lasting_cons.mpr ⟨⟨a, ha, rfl⟩, ?_⟩
      cases capacity with
      | zero => simp at ha
      | succ n =>
          rw [List.take_succ_cons, List.mem_cons] at ha
          obtain rfl | hbefore := ha
          · exact .inl ⟨rfl, htext⟩
          · exact .inr (ih (List.take_subset_take_left additions (Nat.le_succ n) hbefore))

namespace RoomHistory

/-- A room keeps what the newest of its additions, as many as fit, make of it. -/
structure Reflects (capacity : Nat) (additions : List Addition) (h : RoomHistory) : Prop where
  items : h.items = (additions.take capacity).map (·.item)
  /-- A text is there just while it lasts. -/
  lasting : ∀ id, (h.texts.get? id).isSome ↔ Lasting capacity id additions
  /-- It is the last that was added with its id. -/
  last : ∀ id t, h.texts.get? id = some t → lastText id additions = some t

theorem reflects_nil (capacity : Nat) : Reflects capacity [] {} where
  items := by simp
  lasting id := by simp [not_lasting_nil]
  last id t ht := by simp at ht

/-- An item of an id is kept just if one that was added lately has it. -/
theorem Reflects.holds_iff {capacity : Nat} {additions : List Addition} {h : RoomHistory}
    (hr : h.Reflects capacity additions) {id : String} :
    holds h.items id ↔ ∃ a ∈ additions.take capacity, a.item.id = id := by
  rw [hr.items, RoomHistory.holds_iff]
  simp only [List.mem_map, exists_exists_and_eq_and]

/-- No text is kept without an item of its id. -/
theorem Reflects.held {capacity : Nat} {additions : List Addition} {h : RoomHistory}
    (hr : h.Reflects capacity additions) (id : String) (hid : (h.texts.get? id).isSome) :
    holds h.items id :=
  hr.holds_iff.mpr ((hr.lasting id).mp hid).exists_retained

theorem Reflects.append {capacity : Nat} {additions : List Addition} {h : RoomHistory}
    (hr : h.Reflects capacity additions) (a : Addition) :
    (h.append capacity a.item a.text).Reflects capacity (a :: additions) := by
  have hitems : (a.item :: h.items).take capacity =
      ((a :: additions).take capacity).map (·.item) := by
    rw [hr.items, List.map_take, List.map_take]
    cases capacity with
    | zero => simp
    | succ n => simp [List.take_take]
  have hholds (id : String) : holds ((a.item :: h.items).take capacity) id ↔
      ∃ a' ∈ (a :: additions).take capacity, a'.item.id = id := by
    rw [hitems, RoomHistory.holds_iff]
    simp only [List.mem_map, exists_exists_and_eq_and]
  have htexts (id : String) : (h.append capacity a.item a.text).texts.get? id =
      if holds ((a.item :: h.items).take capacity) id then
        (if a.item.id = id then a.text.or (h.texts.get? id) else h.texts.get? id)
      else none := by
    rw [get?_texts_append, forgotten_eq (hr.held id)]
  refine ⟨hitems, ?_, ?_⟩
  · intro id
    rw [htexts, lasting_cons, ← hholds, ← hr.lasting]
    by_cases hkept : holds ((a.item :: h.items).take capacity) id
    · by_cases hid : a.item.id = id <;> simp [hkept, hid]
    · simp [hkept]
  · intro id t ht
    rw [htexts] at ht
    rw [lastText_cons]
    split at ht
    · by_cases hid : a.item.id = id
      · rw [if_pos hid] at ht ⊢
        cases htext : a.text with
        | none => simpa [htext] using hr.last id t (by simpa [htext] using ht)
        | some t' => simpa [htext] using ht
      · rw [if_neg hid] at ht ⊢
        exact hr.last id t ht
    · contradiction

/-- A room has no more texts than items. -/
theorem size_texts_le {h : RoomHistory} (held : ∀ id, (h.texts.get? id).isSome → holds h.items id) :
    h.texts.size ≤ h.items.length := by
  have hsubset : h.texts.keys ⊆ h.items.map (·.id) := by
    intro id hid
    rw [Table.mem_keys_iff] at hid
    obtain ⟨i, hi, rfl⟩ := holds_iff.mp (held id hid)
    exact List.mem_map_of_mem hi
  have hnodup : h.texts.keys.Nodup := h.texts.nodup_keys
  have hle := (hnodup.subperm hsubset).length_le
  simpa [Table.length_keys] using hle

end RoomHistory

namespace Histories

/-- What a log adds to a room, newest first. -/
def additionsTo (key : RoomKey) (log : List Addition) : List Addition :=
  (log.filter fun a => a.key = key).reverse

theorem reflects_addAll {h : Histories} {key : RoomKey} {before : List Addition}
    (hr : (h.room key).Reflects h.capacity before) (log : List Addition) :
    ((h.addAll log).room key).Reflects h.capacity (additionsTo key log ++ before) := by
  induction log generalizing h before with
  | nil => exact hr
  | cons a log ih =>
      have hcons : h.addAll (a :: log) = (h.append a.key a.item a.text).addAll log := rfl
      have hroom := room_append h a.key key a.item a.text
      rw [hcons]
      by_cases hk : a.key = key
      · have hadditions : additionsTo key (a :: log) ++ before =
            additionsTo key log ++ a :: before := by simp [additionsTo, hk]
        rw [if_pos hk] at hroom
        have hreflects := hr.append a
        rw [← hroom] at hreflects
        rw [hadditions]
        exact @ih (h.append a.key a.item a.text) _ hreflects
      · have hadditions : additionsTo key (a :: log) = additionsTo key log := by
          simp [additionsTo, hk]
        rw [if_neg hk] at hroom
        rw [← hroom] at hr
        rw [hadditions]
        exact @ih (h.append a.key a.item a.text) _ hr

/-- **Texts are views of a log**: whatever was added to whichever rooms, and
however much the histories keep, let `retained` be the additions whose items a
room still has.  If one of them with some id came with a text, the text of that
id is the last that was added to the room.  If none has the id, no text is found
for it.  And a room has no more texts than items fit into it. -/
theorem text?_addAll (capacity : Nat) (log : List Addition) (key : RoomKey) :
    let h := (ofCapacity capacity).addAll log
    let additions := additionsTo key log
    let retained := additions.take (max capacity 1)
    (h.room key).items = retained.map (·.item) ∧
    (∀ id, Text.isBlank id = false → (∃ a ∈ retained, a.item.id = id ∧ a.text.isSome) →
      ∃ text, lastText id additions = some text ∧ h.text? key id = some text) ∧
    (∀ id, (∀ a ∈ retained, a.item.id ≠ id) → h.text? key id = none) ∧
    (h.room key).texts.size ≤ max capacity 1 := by
  intro h additions retained
  have hr : (h.room key).Reflects (max capacity 1) additions := by
    have hempty : ((ofCapacity capacity).room key).Reflects (ofCapacity capacity).capacity [] :=
      RoomHistory.reflects_nil _
    have hreflects := reflects_addAll hempty log
    rw [List.append_nil] at hreflects
    exact hreflects
  refine ⟨hr.items, ?_, ?_, ?_⟩
  · rintro id hblank ⟨a, ha, rfl, htext⟩
    obtain ⟨text, hfound⟩ := Option.isSome_iff_exists.mp
      ((hr.lasting a.item.id).mpr (lasting_of_retained ha htext))
    exact ⟨text, hr.last a.item.id text hfound, by simp [text?, hblank, hfound]⟩
  · intro id hgone
    have hnone : (h.room key).texts.get? id = none := by
      rw [← Option.not_isSome_iff_eq_none]
      intro hsome
      obtain ⟨i, hi, hid⟩ := RoomHistory.holds_iff.mp (hr.held id hsome)
      rw [hr.items, List.mem_map] at hi
      obtain ⟨a, ha, rfl⟩ := hi
      exact hgone a ha hid
    simp [text?, hnone]
  · have hitems : (h.room key).items.length ≤ max capacity 1 := by
      rw [hr.items, List.length_map]
      exact List.length_take_le _ _
    exact Nat.le_trans (RoomHistory.size_texts_le hr.held) hitems

end Histories

end ClipRelay
