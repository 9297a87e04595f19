import ClipRelay.Proofs.Relay.Effects

/-!
# ClipRelay.Proofs.Relay.ItemTexts

The texts that a room keeps are those of the items that it keeps.

A text is kept under the id of its item, and several items can have one id.
Still no text outlives the items of its id, and every text item has its text for
as long as it is kept (`Kept.Filed`).  Dropping the oldest items preserves this
(`Kept.Filed.record`), and so does every call (`Kept.Filed.effect`) and every run
(`Reachable.filed`).
-/

namespace ClipRelay.Relay

namespace Kept

/-- The texts of items are those of the items that are kept. -/
structure Filed (k : Kept) : Prop where
  /-- No text is kept without an item of its id. -/
  held : ∀ id, (k.itemTexts id).isSome → RoomHistory.holds k.items id
  /-- No text item is kept without its text. -/
  texts : ∀ i ∈ k.items, i.kind = .text → (k.itemTexts i.id).isSome

variable {capacity : Nat} {item : HistoryItem} {text : Option String} {k : Kept}

/-- The texts once an item was added: the new one comes in place of the old one
of its id, and just those are gone whose items are. -/
theorem itemTexts_record (id : String) :
    (k.record capacity item text).itemTexts id =
      if RoomHistory.holds ((item :: k.items).drop capacity) id &&
          !RoomHistory.holds ((item :: k.items).take capacity) id then none
      else if item.id = id then text.or (k.itemTexts id) else k.itemTexts id := by
  cases text <;> simp [record]

/-- Adding an item keeps texts and items together, if a text item comes with its
text. -/
theorem Filed.record (h : k.Filed) (hitem : item.kind = .text → text.isSome) :
    (k.record capacity item text).Filed := by
  have hitems : (k.record capacity item text).items = (item :: k.items).take capacity := rfl
  have htexts (id : String) : (k.record capacity item text).itemTexts id =
      if RoomHistory.holds ((item :: k.items).take capacity) id then
        (if item.id = id then text.or (k.itemTexts id) else k.itemTexts id)
      else none := by
    rw [itemTexts_record, RoomHistory.forgotten_eq (h.held id)]
  constructor
  · intro id hid
    rw [htexts] at hid
    rw [hitems]
    by_cases hkept : RoomHistory.holds ((item :: k.items).take capacity) id
    · exact hkept
    · simp [hkept] at hid
  · intro i hi hkind
    have hkept : RoomHistory.holds ((item :: k.items).take capacity) i.id :=
      RoomHistory.holds_iff.mpr ⟨i, hi, rfl⟩
    rw [htexts, if_pos hkept]
    obtain rfl | hmem := List.mem_cons.mp (List.mem_of_mem_take hi)
    · simp [hitem hkind]
    · have hbefore := h.texts i hmem hkind
      by_cases hid : item.id = i.id
      · simp [hid, hbefore]
      · simp [hid, hbefore]

/-- What a call makes of a room keeps texts and items together. -/
theorem Filed.effect (h : k.Filed) (account : AccountSettings) (capacity maxSize : Nat)
    (b : Binding) (now : Timestamp) (request : Request) (s : Session) :
    (effect account capacity maxSize b now request s k).kept.Filed := by
  cases request with
  | joinRoom roomId secret =>
      simp only [Relay.effect, kept_joinEffect]
      exact ⟨h.held, h.texts⟩
  | publishText p =>
      simp only [Relay.effect, textEffect]
      cases acceptText now p with
      | error e => exact h
      | ok change =>
          let item := textItem b.roomId change
          have hrecorded : (k.record capacity item (some change.text)).Filed :=
            h.record fun _ => rfl
          exact ⟨hrecorded.held, hrecorded.texts⟩
  | publishPointer p =>
      simp only [Relay.effect, pointerEffect]
      cases acceptPointer account b p <;> exact ⟨h.held, h.texts⟩
  | publishFile p =>
      simp only [Relay.effect, fileEffect]
      cases hitem : acceptFile b.roomId now p with
      | error e => exact h
      | ok item =>
          simp only
          cases Payloads.fault? maxSize p.bytes with
          | some e => exact h
          | none =>
              have hstored : (k.store item.id p.bytes).Filed := ⟨h.held, h.texts⟩
              have hfile := (of_acceptFile hitem).2.2
              have hrecorded : ((k.store item.id p.bytes).record capacity item none).Filed :=
                hstored.record fun htext => absurd (hfile.symm.trans htext) (by decide)
              exact hrecorded
  | getHistory limit => exact h
  | getHistoryText itemId => exact h

end Kept

/-- Whatever happens, the texts that a room keeps are those of its items. -/
theorem Reachable.filed {account : AccountSettings} {capacity : Nat} {r : Relay}
    (h : Reachable account capacity r) (key : RoomKey) : (r.kept key).Filed := by
  refine h.kept_induction (P := Kept.Filed) ⟨?_, ?_⟩ ?_ key
  · intro id hid
    contradiction
  · intro i hi
    contradiction
  · intro b now request s k hk
    exact hk.effect account (max capacity 1) maxFileSize b now request s

end ClipRelay.Relay
