import ClipRelay.Clip.History
import ClipRelay.RoomKey
import ClipRelay.Table
import ClipRelay.Text.Blank

/-!
# ClipRelay.Relay.History

The recent items of each room, and the texts that belong to them.

A room keeps a bounded number of items, newest first.  The text of an item is
kept beside it under the item's id, for as long as an item with that id is.
-/

namespace ClipRelay

/-- The items of one room, newest first, and the texts of items by id. -/
structure RoomHistory where
  items : List HistoryItem := []
  texts : Table String String := ∅

namespace RoomHistory

/-- Whether one of the items has an id. -/
def holds (items : List HistoryItem) (id : String) : Bool := items.any fun i => i.id = id

theorem holds_iff {items : List HistoryItem} {id : String} :
    holds items id = true ↔ ∃ i ∈ items, i.id = id := by
  simp [holds]

theorem holds_append (items items' : List HistoryItem) (id : String) :
    holds (items ++ items') id = (holds items id || holds items' id) := List.any_append

/-- Forgets the texts of items that were dropped, unless an item that is kept
has the same id. -/
def forget (kept : List HistoryItem) (dropped : List HistoryItem) (texts : Table String String) :
    Table String String :=
  dropped.foldl (fun texts i => if holds kept i.id then texts else texts.erase i.id) texts

/-- Adds an item, with its text if it has one, and drops what no longer fits. -/
def append (capacity : Nat) (h : RoomHistory) (item : HistoryItem) (text : Option String) :
    RoomHistory :=
  let texts := match text with
    | some t => h.texts.insert item.id t
    | none => h.texts
  let items := item :: h.items
  let kept := items.take capacity
  ⟨kept, forget kept (items.drop capacity) texts⟩

/-- Just the texts are forgotten whose items were dropped, with none of the
same id kept. -/
theorem get?_forget (kept dropped : List HistoryItem) (texts : Table String String) (id : String) :
    (forget kept dropped texts).get? id =
      if holds dropped id && !holds kept id then none else texts.get? id := by
  induction dropped generalizing texts with
  | nil => simp [forget, holds]
  | cons i dropped ih =>
      have hcons : forget kept (i :: dropped) texts =
          forget kept dropped (if holds kept i.id then texts else texts.erase i.id) := rfl
      have hholds : holds (i :: dropped) id = (decide (i.id = id) || holds dropped id) := rfl
      rw [hcons, ih, hholds]
      by_cases hi : i.id = id
      · subst hi
        cases hk : holds kept i.id with
        | true => simp
        | false => simp [Table.get?_erase]
      · have herase : (if holds kept i.id then texts else texts.erase i.id).get? id =
            texts.get? id := by
          split
          · rfl
          · rw [Table.get?_erase, if_neg hi]
        rw [herase, decide_eq_false hi, Bool.false_or]

theorem get?_texts_append (capacity : Nat) (h : RoomHistory) (item : HistoryItem)
    (text : Option String) (id : String) :
    (h.append capacity item text).texts.get? id =
      if holds ((item :: h.items).drop capacity) id &&
          !holds ((item :: h.items).take capacity) id then none
      else if item.id = id then text.or (h.texts.get? id) else h.texts.get? id := by
  cases text <;> simp [append, get?_forget, Table.get?_insert]

/-- Where a text is known only of an id that some item has, adding an item forgets
it just if no item of that id is kept. -/
theorem forgotten_eq {capacity : Nat} {item : HistoryItem} {items : List HistoryItem}
    {id : String} {text old : Option String} (held : old.isSome → holds items id) :
    (if holds ((item :: items).drop capacity) id &&
          !holds ((item :: items).take capacity) id then none
      else if item.id = id then text.or old else old) =
      if holds ((item :: items).take capacity) id then
        (if item.id = id then text.or old else old)
      else none := by
  have hsplit : holds (item :: items) id =
      (holds ((item :: items).take capacity) id || holds ((item :: items).drop capacity) id) := by
    rw [← holds_append, List.take_append_drop]
  cases hkept : holds ((item :: items).take capacity) id with
  | true => simp
  | false =>
      cases hdropped : holds ((item :: items).drop capacity) id with
      | true => simp
      | false =>
          -- No item has the id, so nothing was known of it.
          rw [hkept, hdropped, Bool.or_false] at hsplit
          have hitem : item.id ≠ id := by
            intro hi
            simp [holds, hi] at hsplit
          have hold : old = none := by
            cases old with
            | none => rfl
            | some t =>
                have hitems : holds items id := held rfl
                simp [holds] at hsplit hitems
                obtain ⟨i, hi, hid⟩ := hitems
                exact absurd hid (hsplit.2 i hi)
          simp [hitem, hold]

end RoomHistory

/-- The histories of all rooms. -/
structure Histories where
  /-- How many items a room keeps; one at least. -/
  capacity : Nat
  one_le_capacity : 1 ≤ capacity
  rooms : Table RoomKey RoomHistory := ∅

namespace Histories

/-- The shortest list of items that can be asked for. -/
def minLimit : Nat := 1

/-- The longest list of items that can be asked for. -/
def maxLimit : Nat := 100

/-- The number of items that a limit asks for. -/
def effectiveLimit (limit : Int32) : Nat := max minLimit (min limit.toInt.toNat maxLimit)

/-- Empty histories that keep so many items a room, but one at least. -/
def ofCapacity (capacity : Nat) : Histories where
  capacity := max capacity 1
  one_le_capacity := by omega

/-- The history of a room. -/
def room (h : Histories) (key : RoomKey) : RoomHistory := (h.rooms.get? key).getD {}

/-- Adds an item to a room, with its text if it has one. -/
def append (h : Histories) (key : RoomKey) (item : HistoryItem) (text : Option String) :
    Histories :=
  { h with rooms := h.rooms.insert key ((h.room key).append h.capacity item text) }

theorem room_append (h : Histories) (key key' : RoomKey) (item : HistoryItem)
    (text : Option String) :
    (h.append key item text).room key' =
      if key = key' then (h.room key').append h.capacity item text else h.room key' := by
  by_cases hk : key = key'
  · subst hk
    simp [append, room]
  · simp [append, room, Table.get?_insert, hk]

/-- The newest items of a room. -/
def recent (h : Histories) (key : RoomKey) (limit : Int32) : List HistoryItem :=
  (h.room key).items.take (effectiveLimit limit)

/-- The text of an item. -/
def text? (h : Histories) (key : RoomKey) (id : String) : Option String :=
  if Text.isBlank id then none else (h.room key).texts.get? id

end Histories

end ClipRelay
