import ClipRelay.Proofs.Relay.WellFormed

/-!
# ClipRelay.Proofs.Relay.LatestText

The latest text of a room, and its place in the history.

Publishing a text writes the clipboard of its room, the history and the texts
beside it.  Later publications treat the three differently: a pointer touches
none of them, a file only the history, where it pushes the text back and may take
its id.  All three are views of what was posted in the room, so they are compared
there: the latest text is the last that was posted, and what was posted since
stands before it in the history (`additionsTo_of_last`).
-/

namespace ClipRelay

open Relay

/-- An item that tells of a text. -/
structure HistoryItem.TellsOf (i : HistoryItem) (c : TextChange) : Prop where
  kind : i.kind = .text
  id : i.id = contentId c.serverTime c.origin c.textHash
  origin : i.origin = c.origin
  time : i.time = c.serverTime
  hash : i.contentHash = c.textHash
  size : i.sizeBytes.toInt = c.text.utf8ByteSize
  title : i.title = String.ofList (c.text.toList.take 120)

theorem tellsOf_textItem {c : TextChange} (h : c.WellFormed) (roomId : String) :
    (textItem roomId c).TellsOf c :=
  ⟨rfl, rfl, rfl, rfl, rfl, sizeBytes_textItem h roomId, rfl⟩

/-- The last of a kind stands in a list, and none of the kind behind it. -/
theorem exists_of_getLast?_filterMap {α β : Type} {kind : α → Option β} {xs : List α} {b : β}
    (h : (xs.filterMap kind).getLast? = some b) :
    ∃ before a after, xs = before ++ a :: after ∧ kind a = some b ∧
      ∀ x ∈ after, kind x = none := by
  rw [List.getLast?_filterMap, List.findSome?_eq_some_iff] at h
  obtain ⟨behind, a, front, hreverse, hkind, hnone⟩ := h
  refine ⟨front.reverse, a, behind.reverse, ?_, hkind, fun x hx => ?_⟩
  · rw [← List.reverse_inj, hreverse]
    simp
  · exact hnone x (List.mem_reverse.mp hx)

/-- What was added later without a text does not hide a text. -/
theorem lastText_append_of_none {id : String} {later : List Addition}
    (h : ∀ a ∈ later, a.text = none) (additions : List Addition) :
    lastText id (later ++ additions) = lastText id additions := by
  induction later with
  | nil => rfl
  | cons a later ih =>
      have hlater := ih fun a' ha' => h a' (List.mem_cons_of_mem a ha')
      rw [List.cons_append, lastText_cons, h a List.mem_cons_self, Option.none_or, hlater, ite_self]

namespace RoomHistory

/-- An item with a text that fewer additions than fit came after, all without a text, is
found where they say, and so is its text. -/
theorem Reflects.found {capacity : Nat} {later earlier : List Addition} {a : Addition}
    {h : RoomHistory} (hr : h.Reflects capacity (later ++ a :: earlier))
    (hlater : ∀ a' ∈ later, a'.text = none) {text : String} (htext : a.text = some text)
    (hn : later.length < capacity) :
    h.items[later.length]? = some a.item ∧ h.texts.get? a.item.id = some text := by
  have hretained : ((later ++ a :: earlier).take capacity)[later.length]? = some a := by
    rw [List.getElem?_take_of_lt hn, List.getElem?_append_right (Nat.le_refl _), Nat.sub_self]
    rfl
  have hsome : a.text.isSome := by simp [htext]
  obtain ⟨t, ht⟩ := Option.isSome_iff_exists.mp
    ((hr.lasting a.item.id).mpr (lasting_of_retained (List.mem_of_getElem? hretained) hsome))
  have hlast := hr.last a.item.id t ht
  rw [lastText_append_of_none hlater, lastText_cons, if_pos rfl, htext, Option.some_or] at hlast
  refine ⟨?_, ht.trans hlast.symm⟩
  rw [hr.items, List.getElem?_map, hretained, Option.map_some]

end RoomHistory

namespace Relay

section
variable {account : AccountSettings} {capacity : Nat} {actions : List Action} {key : RoomKey}

/-- What a room was given since its last text: no texts. -/
theorem additionsTo_of_last {before after : List Publication} {roomId : String} {c : TextChange}
    (hlog : (empty account capacity).publications key actions =
      before ++ .text roomId c :: after) (hafter : ∀ p ∈ after, p.text? = none) :
    ∃ later earlier, Histories.additionsTo key ((empty account capacity).additions actions) =
        later ++ ⟨key, textItem roomId c, some c.text⟩ :: earlier ∧
      (∀ a ∈ later, a.text = none) ∧
      later.length = (after.filterMap Publication.item?).length := by
  refine ⟨(after.filterMap (·.addition? key)).reverse,
    (before.filterMap (·.addition? key)).reverse, ?_, ?_, ?_⟩
  · rw [additionsTo_additions rfl, hlog, List.filterMap_append, List.filterMap_cons]
    simp [Publication.addition?]
  · intro a ha
    obtain ⟨p, hp, hadds⟩ := List.mem_filterMap.mp (List.mem_reverse.mp ha)
    have hnone := hafter p hp
    cases p with
    | text roomId change => cases hnone
    | pointer p => cases hadds
    | file item bytes =>
        cases hadds
        rfl
  · have hitems : after.filterMap Publication.item? =
        (after.filterMap (·.addition? key)).map (·.item) := by
      rw [List.map_filterMap]
      exact List.filterMap_congr fun p _ => (Publication.map_item_addition? key p).symm
    rw [hitems, List.length_map, List.length_reverse]

end

/-- **The latest text in all stores**: after any run, a room has a latest text just if a
text was posted there.  That text was then posted after all others in the room.  Let
`n` be the number of items that were posted there since.  If `n` is less than the
room keeps, the item at `n` in its history tells of the text, and whoever is in the
room and asks for the text of that item gets the text, all of it. -/
theorem latest_text_in_history (account : AccountSettings) (capacity : Nat)
    (actions : List Action) (key : RoomKey) :
    let r := (empty account capacity).run actions
    let postings := (empty account capacity).postings actions
    let log := (empty account capacity).publications key actions
    ((∃ c, r.texts.get? key = some c) ↔
      ∃ post ∈ postings, post.key = key ∧ post.publication.text?.isSome) ∧
    ∀ c, r.texts.get? key = some c →
      ∃ before roomId after, log = before ++ .text roomId c :: after ∧
        (∀ p ∈ after, p.text? = none) ∧
        let n := (after.filterMap Publication.item?).length
        n < max capacity 1 →
          ∃ item, (r.histories.room key).items[n]? = some item ∧ item.TellsOf c ∧
            ∀ now id b, r.bindingOf? id = some b → b.key = key →
              (r.perform now id (.getHistoryText item.id)).1 =
                .ok (.historyText ⟨item.id, c.text⟩) := by
  intro r postings log
  have hlatest : r.texts.get? key = (log.filterMap Publication.text?).getLast? :=
    text_posted account capacity actions key
  refine ⟨⟨?_, ?_⟩, ?_⟩
  · rintro ⟨c, hc⟩
    rw [hlatest] at hc
    obtain ⟨post, hpost, hkey, htext⟩ := exists_posting_of_mem (List.mem_of_getLast? hc)
    exact ⟨post, hpost, hkey, Option.isSome_iff_exists.mpr ⟨c, htext⟩⟩
  · rintro ⟨post, hpost, hkey, hsome⟩
    obtain ⟨c, hc⟩ := Option.isSome_iff_exists.mp hsome
    have hmem : c ∈ log.filterMap Publication.text? :=
      List.mem_filterMap.mpr ⟨_, mem_publications.mpr ⟨post, hpost, hkey, rfl⟩, hc⟩
    rw [hlatest, ← Option.isSome_iff_exists, List.getLast?_isSome]
    exact List.ne_nil_of_mem hmem
  · intro c hc
    rw [hlatest] at hc
    obtain ⟨before, p, after, hlog, htext, hafter⟩ := exists_of_getLast?_filterMap hc
    obtain ⟨roomId, rfl⟩ := Publication.text?_eq_some_iff.mp htext
    refine ⟨before, roomId, after, hlog, hafter, fun hn => ?_⟩
    have hwell : c.WellFormed := by
      have hmem : .text roomId c ∈ log := by simp [hlog]
      obtain ⟨post, hpost, -, hpublication⟩ := mem_publications.mp hmem
      have hwell := wellFormed_of_mem_postings hpost
      rwa [hpublication] at hwell
    obtain ⟨later, earlier, hadditions, hlater, hlength⟩ := additionsTo_of_last hlog hafter
    have hr := reflects_run account capacity actions key
    rw [hadditions] at hr
    rw [← hlength] at hn ⊢
    obtain ⟨hitem, hfound⟩ := hr.found hlater rfl hn
    refine ⟨textItem roomId c, hitem, tellsOf_textItem hwell roomId, fun now id b hb hkey => ?_⟩
    have hid : Text.isBlank (textItem roomId c).id = false := isBlank_contentId _ _ _
    exact answer_getHistoryText hb hid (hkey ▸ hfound) now

end Relay

end ClipRelay
