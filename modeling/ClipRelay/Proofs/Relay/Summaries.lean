import ClipRelay.Proofs.Relay.WellFormed

/-!
# ClipRelay.Proofs.Relay.Summaries

How long the titles and previews of history items are.

A text is cut for its title and its preview, so both are brief (`brief_textItem`).  A
file has no preview, and its title is its name just as the device gave it, however long
that is (`not_brief_iff_of_acceptFile`).
-/

namespace ClipRelay

open Relay

/-- The title of an item and its preview, if it has one, are at most 120 characters long. -/
structure HistoryItem.Brief (i : HistoryItem) : Prop where
  title : i.title.length ≤ 120
  preview : ∀ preview, i.preview = some preview → preview.length ≤ 120

theorem length_truncate (n : Nat) (s : String) : (truncate n s).length = min n s.length := by
  rw [truncate, String.length_ofList, List.length_take, String.length_toList]

namespace Relay

theorem brief_textItem (roomId : String) (change : TextChange) :
    (textItem roomId change).Brief := by
  have hcut : (truncate summaryLength change.text).length ≤ 120 := by
    rw [length_truncate]
    exact Nat.min_le_left ..
  refine ⟨hcut, fun preview hpreview => ?_⟩
  rw [← Option.some.inj hpreview]
  exact hcut

/-- The title of a file is its name, if it has one, and it has no preview. -/
theorem summary_of_acceptFile {roomId : String} {now : Timestamp} {p : FilePublish}
    {i : HistoryItem} (h : acceptFile roomId now p = .ok i) :
    i.title = orDefault p.fileName unnamedFile ∧ i.preview = none := by
  unfold acceptFile at h
  repeat' split at h
  · contradiction
  · contradiction
  · contradiction
  · rw [← Except.ok.inj h]
    exact ⟨rfl, rfl⟩

/-- The item of a file is brief unless the file has a name that is not. -/
theorem not_brief_iff_of_acceptFile {roomId : String} {now : Timestamp} {p : FilePublish}
    {i : HistoryItem} (h : acceptFile roomId now p = .ok i) :
    ¬i.Brief ↔ i.title = p.fileName ∧ 120 < p.fileName.length := by
  obtain ⟨htitle, hpreview⟩ := summary_of_acceptFile h
  have hbrief : i.Brief ↔ i.title.length ≤ 120 := by
    refine ⟨HistoryItem.Brief.title, fun hlength => ⟨hlength, fun preview hsome => ?_⟩⟩
    rw [hpreview] at hsome
    cases hsome
  rw [hbrief, Nat.not_le]
  constructor
  · intro hlong
    by_cases hblank : Text.isBlank p.fileName
    · rw [htitle, orDefault, if_pos hblank] at hlong
      exact absurd hlong (by decide)
    · rw [htitle, orDefault, if_neg hblank] at hlong ⊢
      exact ⟨rfl, hlong⟩
  · rintro ⟨hname, hlong⟩
    rwa [hname]

/-- Who posts an item that is not brief publishes a file with a long name. -/
theorem not_brief_iff_of_posting? {r : Relay} {a : Action} {post : Posting} {i : HistoryItem}
    (h : r.posting? a = some post) (hi : post.publication.item? = some i) :
    ¬i.Brief ↔ ∃ now id p, a = .call now id (.publishFile p) ∧
      (∃ b, r.bindingOf? id = some b ∧ b.key = post.key ∧ acceptFile b.roomId now p = .ok i) ∧
      i.title = p.fileName ∧ 120 < p.fileName.length := by
  obtain ⟨now, id, request, s, b, rfl, hs, hb, -, hkey, hrequest, -⟩ := exists_of_posting? h
  have hbound : r.bindingOf? id = some b := (bindingOf?_of_session hs).trans hb
  cases request with
  | publishFile p =>
      obtain ⟨item, hitem, hfile⟩ := Option.map_eq_some_iff.mp hrequest
      rw [← hfile] at hi
      cases hi
      have haccept := eq_ok_of_toOption hitem
      rw [not_brief_iff_of_acceptFile haccept]
      constructor
      · intro hlong
        exact ⟨now, id, p, rfl, ⟨b, hbound, hkey, haccept⟩, hlong⟩
      · rintro ⟨_, _, _, hcall, -, hlong⟩
        cases hcall
        exact hlong
  | publishText p =>
      obtain ⟨change, -, htext⟩ := Option.map_eq_some_iff.mp hrequest
      rw [← htext] at hi
      cases hi
      refine iff_of_false (fun hlong => hlong (brief_textItem ..)) ?_
      rintro ⟨_, _, _, hcall, -⟩
      cases hcall
  | publishPointer p =>
      obtain ⟨pointer, -, hpointer⟩ := Option.map_eq_some_iff.mp hrequest
      rw [← hpointer] at hi
      cases hi
  | _ => cases hrequest

/-- **Titles and previews**: after any run, whatever item a room keeps has a preview of
at most 120 characters, if it has one, and, if it is a text, such a title too.  What is
not brief is just the items of files that were published under a name of more than 120
characters, which is their title. -/
theorem brief_unless_long_name (account : AccountSettings) (capacity : Nat)
    (actions : List Action) (key : RoomKey) {i : HistoryItem}
    (hi : i ∈ (((empty account capacity).run actions).histories.room key).items) :
    (∀ preview, i.preview = some preview → preview.length ≤ 120) ∧
    (i.kind = .text → i.Brief) ∧
    (¬i.Brief ↔ ∃ before now id p after,
      actions = before ++ .call now id (.publishFile p) :: after ∧
      (∃ b, ((empty account capacity).run before).bindingOf? id = some b ∧ b.key = key ∧
        acceptFile b.roomId now p = .ok i) ∧
      i.title = p.fileName ∧ 120 < p.fileName.length) := by
  rw [items_posted] at hi
  obtain ⟨post, hpost, rfl, hitem⟩ :=
    exists_posting_of_mem (List.mem_reverse.mp (List.mem_of_mem_take hi))
  have hwell := wellFormed_item? (wellFormed_of_mem_postings hpost) hitem
  obtain ⟨before, a, after, rfl, hposting⟩ := exists_action_of_mem_postings hpost
  have hlong := not_brief_iff_of_posting? hposting hitem
  have htext : i.kind = .text → i.Brief := by
    intro hkind
    by_contra hnot
    obtain ⟨_, _, p, -, ⟨b, -, -, haccept⟩, -⟩ := hlong.mp hnot
    rw [(of_acceptFile haccept).2.2] at hkind
    cases hkind
  refine ⟨fun preview hpreview => ?_, htext, fun hnot => ?_, ?_⟩
  · cases hkind : i.kind with
    | text => exact (htext hkind).preview preview hpreview
    | file =>
        rw [hwell.preview_file hkind] at hpreview
        cases hpreview
  · obtain ⟨now, id, p, rfl, haccept, hname⟩ := hlong.mp hnot
    exact ⟨before, now, id, p, after, rfl, haccept, hname⟩
  · rintro ⟨_, _, _, p, _, -, ⟨b, -, -, haccept⟩, hname⟩
    exact (not_brief_iff_of_acceptFile haccept).mpr hname

/-- The item of a note in a room is brief. -/
theorem brief_unless_long_name_note :
    ∃ i ∈ (((empty {} 10).run [.connect none 8, .call 1 0 (.joinRoom "home" "sesame"),
      .call 1 0 (.publishText note)]).histories.room (.shared "home")).items, i.Brief := by
  refine ⟨_, List.mem_singleton.mpr rfl, ?_⟩
  obtain ⟨-, htext, -⟩ := brief_unless_long_name {} 10 [.connect none 8,
    .call 1 0 (.joinRoom "home" "sesame"), .call 1 0 (.publishText note)] (.shared "home")
    (List.mem_singleton.mpr rfl)
  exact htext rfl

/-- The note, as a file with a name of 121 characters. -/
def longNamedFile : FilePublish :=
  { noteFile with fileName := String.ofList (List.replicate 121 'a') }

/-- A file with a long name is kept under the whole of it. -/
theorem kept_under_long_name :
    ∃ i ∈ (((empty {} 10).run [.connect none 8, .call 1 0 (.joinRoom "home" "sesame"),
      .call 1 0 (.publishFile longNamedFile)]).histories.room (.shared "home")).items,
      ¬i.Brief := by
  obtain ⟨item, hitems, haccept⟩ : ∃ item, (((empty {} 10).run [.connect none 8,
        .call 1 0 (.joinRoom "home" "sesame"),
        .call 1 0 (.publishFile longNamedFile)]).histories.room (.shared "home")).items = [item] ∧
      acceptFile "home" 1 longNamedFile = .ok item := ⟨_, rfl, rfl⟩
  have hnamed : Text.isBlank longNamedFile.fileName = false := by
    have ha : Text.isSpace 'a' = false := by decide
    simp [longNamedFile, Text.isBlank, ha]
  have hlong : 120 < longNamedFile.fileName.length := by
    rw [longNamedFile, String.length_ofList, List.length_replicate]
    decide
  have htitle := (summary_of_acceptFile haccept).1
  rw [orDefault, hnamed, if_neg Bool.false_ne_true] at htitle
  exact ⟨item, hitems ▸ List.mem_cons_self,
    (not_brief_iff_of_acceptFile haccept).mpr ⟨htitle, hlong⟩⟩

end Relay

end ClipRelay
