import ClipRelay.Proofs.Clip.Names
import ClipRelay.Proofs.Relay.Clash
import ClipRelay.Proofs.Relay.Log
import ClipRelay.Proofs.Relay.Publications

/-!
# ClipRelay.Proofs.Relay.Retrieval

Which texts can be asked for, and when.

What is published in a run is the log that the histories are views of
(`histories_run`).  Its items are named after their content (`Genuine`), so
that whatever is found under the id of an item has the hash of that item.

A text is found for every text item that is kept.  But ids do not tell kinds: a
file with the bytes of a text, from the same device in the same millisecond, has
the id of the text, and keeps it from being forgotten.  Then the text is found
as well where only the file is kept (`itemText_answered`), just while it lasts
in the log (`Lasting`).
-/

namespace ClipRelay

open Relay

/-! ## What is added -/

/-- An item is named after its time, its device and its content. -/
structure HistoryItem.Named (i : HistoryItem) : Prop where
  id : i.id = contentId i.time i.origin i.contentHash
  length_hash : i.contentHash.length = Sha256.size

/-- Items of one id have one content. -/
theorem HistoryItem.Named.hash_eq {i j : HistoryItem} (hi : i.Named) (hj : j.Named)
    (h : i.id = j.id) : i.contentHash = j.contentHash := by
  rw [hi.id, hj.id] at h
  exact (contentId_inj.mp h).2.2

/-- An addition as publications bring them: a text item with its text, or a file
item without one. -/
structure Addition.Genuine (a : Addition) : Prop where
  named : a.item.Named
  isSome_text : a.text.isSome ↔ a.item.kind = .text
  hash : ∀ t, a.text = some t → a.item.contentHash = textHash t

namespace RoomHistory

/-- An item of an id and a kind is kept. -/
def Retains (h : RoomHistory) (id : String) (kind : HistoryKind) : Prop :=
  ∃ i ∈ h.items, i.id = id ∧ i.kind = kind

section
variable {capacity : Nat} {additions : List Addition} {h : RoomHistory}
  (hr : h.Reflects capacity additions) (hgenuine : ∀ a ∈ additions, a.Genuine)
include hr hgenuine

/-- A text of an id lasts while a text item of the id is kept, and otherwise no
longer than a file item of the id. -/
theorem Reflects.lasting_iff (id : String) :
    Lasting capacity id additions ↔
      h.Retains id .text ∨ h.Retains id .file ∧ Lasting capacity id additions := by
  constructor
  · intro hlasting
    obtain ⟨a, ha, hid⟩ := hlasting.exists_retained
    have hitem : a.item ∈ h.items := by
      rw [hr.items]
      exact List.mem_map_of_mem ha
    cases hkind : a.item.kind with
    | text => exact .inl ⟨a.item, hitem, hid, hkind⟩
    | file => exact .inr ⟨⟨a.item, hitem, hid, hkind⟩, hlasting⟩
  · rintro (⟨i, hi, rfl, hkind⟩ | ⟨-, hlasting⟩)
    · rw [hr.items] at hi
      obtain ⟨a, ha, rfl⟩ := List.mem_map.mp hi
      exact lasting_of_retained ha
        ((hgenuine a (List.mem_of_mem_take ha)).isSome_text.mpr hkind)
    · exact hlasting

/-- The text of an id has the hash of every item of the id. -/
theorem Reflects.textHash_eq {id t : String} (ht : h.texts.get? id = some t)
    {i : HistoryItem} (hi : i ∈ h.items) (hid : i.id = id) : textHash t = i.contentHash := by
  obtain ⟨a, ha, haid, htext⟩ := exists_of_lastText (hr.last id t ht)
  rw [hr.items] at hi
  obtain ⟨a', ha', rfl⟩ := List.mem_map.mp hi
  have hgenuine' := hgenuine a' (List.mem_of_mem_take ha')
  calc textHash t = a.item.contentHash := ((hgenuine a ha).hash t htext).symm
    _ = a'.item.contentHash := (hgenuine a ha).named.hash_eq hgenuine'.named (haid.trans hid.symm)

end

end RoomHistory

/-- What a publication adds to the history of its room. -/
def Publication.addition? (key : RoomKey) : Publication → Option Addition
  | .text roomId change => some ⟨key, textItem roomId change, some change.text⟩
  | .pointer _ => none
  | .file item _ => some ⟨key, item, none⟩

namespace Relay

theorem textHash_of_acceptText {now : Timestamp} {p : TextPublish} {change : TextChange}
    (h : acceptText now p = .ok change) : change.textHash = textHash change.text := by
  unfold acceptText at h
  split at h
  · contradiction
  · split at h
    · contradiction
    · split at h
      · contradiction
      · rw [← Except.ok.inj h]
        exact hashToKeep_eq p

theorem named_of_acceptFile {roomId : String} {now : Timestamp} {p : FilePublish}
    {item : HistoryItem} (h : acceptFile roomId now p = .ok item) : item.Named := by
  unfold acceptFile at h
  split at h
  · contradiction
  · split at h
    · contradiction
    · split at h
      · contradiction
      · rw [← Except.ok.inj h]
        exact ⟨rfl, Sha256.length_digest p.bytes⟩

theorem genuine_of_ofRequest? {account : AccountSettings} {b : Binding} {now : Timestamp}
    {request : Request} {p : Publication} {key : RoomKey} {a : Addition}
    (hp : Publication.ofRequest? account b now request = some p)
    (ha : p.addition? key = some a) : a.Genuine := by
  cases request with
  | publishText q =>
      obtain ⟨change, hchange, rfl⟩ := Option.map_eq_some_iff.mp hp
      cases ha
      have hhash := textHash_of_acceptText (eq_ok_of_toOption hchange)
      refine ⟨⟨rfl, ?_⟩, ?_, ?_⟩
      · exact (congrArg List.length hhash).trans (length_textHash change.text)
      · exact iff_of_true rfl rfl
      · intro t ht
        cases ht
        exact hhash
  | publishPointer q =>
      obtain ⟨pointer, -, rfl⟩ := Option.map_eq_some_iff.mp hp
      cases ha
  | publishFile q =>
      obtain ⟨item, hitem, rfl⟩ := Option.map_eq_some_iff.mp hp
      cases ha
      have haccept := eq_ok_of_toOption hitem
      have hfile := (of_acceptFile haccept).2.2
      refine ⟨named_of_acceptFile haccept, ?_, ?_⟩
      · simp [hfile]
      · intro t ht
        cases ht
  | _ => cases hp

/-! ## The log of a run -/

/-- What an action adds to the histories. -/
def added (r : Relay) (a : Action) : List Addition :=
  ((r.published? a).bind fun keyed => keyed.2.addition? keyed.1).toList

/-- What a run adds to the histories, in order. -/
def additions (r : Relay) : List Action → List Addition
  | [] => []
  | a :: as => r.added a ++ additions (r.step a).2 as

theorem genuine_of_mem_added {r : Relay} {action : Action} {a : Addition}
    (h : a ∈ r.added action) : a.Genuine := by
  obtain ⟨⟨key, p⟩, hp, ha⟩ := Option.bind_eq_some_iff.mp (Option.mem_toList.mp h)
  cases action with
  | call now id request =>
      obtain ⟨s, b, -, -, rfl, hrequest⟩ := published?_eq_some hp
      exact genuine_of_ofRequest? hrequest ha
  | _ => cases hp

theorem genuine_of_mem_additions {r : Relay} {actions : List Action} {a : Addition}
    (h : a ∈ r.additions actions) : a.Genuine := by
  induction actions generalizing r with
  | nil => cases h
  | cons action actions ih =>
      obtain hnew | hlater := List.mem_append.mp h
      · exact genuine_of_mem_added hnew
      · exact ih hlater

theorem histories_store (r : Relay) (key : RoomKey) (p : Publication) :
    (p.store r key).histories = r.histories.addAll (p.addition? key).toList := by
  cases p <;> rfl

theorem histories_step {r : Relay} (hmax : r.files.maxSize = maxFileSize) (a : Action) :
    (r.step a).2.histories = r.histories.addAll (r.added a) := by
  rw [(sameStores_step hmax a).histories, stored, added]
  cases r.published? a with
  | none => rfl
  | some keyed =>
      obtain ⟨key, p⟩ := keyed
      exact histories_store r key p

/-- The histories are what the additions of a run make of them. -/
theorem histories_run {r : Relay} (hmax : r.files.maxSize = maxFileSize) (actions : List Action) :
    (r.run actions).histories = r.histories.addAll (r.additions actions) := by
  induction actions generalizing r with
  | nil => rfl
  | cons a actions ih =>
      have hmax' : (r.step a).2.files.maxSize = maxFileSize :=
        (sameSettings_step r a).maxSize.trans hmax
      have hrun : r.run (a :: actions) = (r.step a).2.run actions := rfl
      rw [hrun, ih hmax', histories_step hmax, additions, Histories.addAll, Histories.addAll,
        Histories.addAll, List.foldl_append]

/-- After a run from the empty relay, a room is what its additions make of it. -/
theorem reflects_run (account : AccountSettings) (capacity : Nat) (actions : List Action)
    (key : RoomKey) :
    (((empty account capacity).run actions).histories.room key).Reflects (max capacity 1)
      (Histories.additionsTo key ((empty account capacity).additions actions)) := by
  have hmax : (empty account capacity).files.maxSize = maxFileSize := rfl
  have hempty : ((empty account capacity).histories.room key).Reflects
      (empty account capacity).histories.capacity [] := RoomHistory.reflects_nil _
  have hreflects :=
    Histories.reflects_addAll hempty ((empty account capacity).additions actions)
  rw [List.append_nil, ← histories_run hmax] at hreflects
  exact hreflects

/-! ## What is found -/

/-- The answer to a session in a room, given what text the room has for an id. -/
theorem answer_getHistoryText {r : Relay} {id : SessionId} {b : Binding} {itemId : String}
    {found : Option String} (hb : r.bindingOf? id = some b) (hid : Text.isBlank itemId = false)
    (h : (r.histories.room b.key).texts.get? itemId = found) (now : Timestamp) :
    (r.perform now id (.getHistoryText itemId)).1 =
      match found with
      | some text => .ok (.historyText ⟨itemId, text⟩)
      | none => .error (.itemNotFound itemId) := by
  obtain ⟨s, hs, hbound⟩ := Option.bind_eq_some_iff.mp hb
  simp only [perform, hs, hbound, itemText, Histories.text?, hid, h, Bool.false_eq_true, if_false]
  cases found <;> rfl

/-- **Texts of items**: after any run, let a session that is bound to a room ask
for the text of an id that is no blank.  It gets one just if the room retains a
text item of the id, or a file item of it while a text of the id lasts.
Otherwise it is told that there is none.  And the text that it gets has the hash
of every item of the id that the room retains. -/
theorem itemText_answered (account : AccountSettings) (capacity : Nat) (actions : List Action)
    (now : Timestamp) {id : SessionId} {b : Binding} {itemId : String}
    (hb : ((empty account capacity).run actions).bindingOf? id = some b)
    (hid : Text.isBlank itemId = false) :
    let r := (empty account capacity).run actions
    let answer := (r.perform now id (.getHistoryText itemId)).1
    let room := r.histories.room b.key
    let lasting := Lasting (max capacity 1) itemId
      (Histories.additionsTo b.key ((empty account capacity).additions actions))
    ((∃ text, answer = .ok (.historyText ⟨itemId, text⟩)) ↔
      room.Retains itemId .text ∨ room.Retains itemId .file ∧ lasting) ∧
    (answer = .error (.itemNotFound itemId) ↔
      ¬(room.Retains itemId .text ∨ room.Retains itemId .file ∧ lasting)) ∧
    ∀ text, answer = .ok (.historyText ⟨itemId, text⟩) →
      ∀ i ∈ room.items, i.id = itemId → textHash text = i.contentHash := by
  intro r answer room lasting
  have hr := reflects_run account capacity actions b.key
  have hgenuine : ∀ a ∈ Histories.additionsTo b.key ((empty account capacity).additions actions),
      a.Genuine := by
    intro a ha
    exact genuine_of_mem_additions (List.mem_of_mem_filter (List.mem_reverse.mp ha))
  rw [← hr.lasting_iff hgenuine, ← hr.lasting]
  cases htext : room.texts.get? itemId with
  | none =>
      have hnone : answer = .error (.itemNotFound itemId) := answer_getHistoryText hb hid htext now
      simp [hnone]
  | some t =>
      have hsome : answer = .ok (.historyText ⟨itemId, t⟩) := answer_getHistoryText hb hid htext now
      refine ⟨?_, ?_, ?_⟩
      · exact iff_of_true ⟨t, hsome⟩ rfl
      · simp [hsome]
      · intro text htext' i hi hid'
        rw [hsome] at htext'
        cases htext'
        exact hr.textHash_eq hgenuine htext hi hid'

/-- The bytes of the note, as a file. -/
def noteFile : FilePublish where
  deviceId := note.deviceId
  fileName := "note.txt"
  contentType := plainText
  bytes := Bytes.ofText note.text

/-- The id that the relay gives to the note. -/
def noteId : String := contentId 1 note.deviceId (textHash note.text)

theorem isBlank_contentId (time : Timestamp) (device : Uuid) (hash : Bytes) :
    Text.isBlank (contentId time device hash) = false := by
  have hbar : Text.isSpace '_' = false := by decide
  simp [Text.isBlank, contentId, hbar]

/-- A note that was published is found. -/
theorem itemText_answered_note :
    let r := (empty { enabled := true } 10).run
      [.connect (some ⟨"ada", none⟩) 8, .call 1 0 (.joinRoom "home" ""),
        .call 1 0 (.publishText note)]
    Text.isBlank noteId = false ∧
      ∃ text, (r.perform 2 0 (.getHistoryText noteId)).1 = .ok (.historyText ⟨noteId, text⟩) ∧
        textHash text = textHash note.text := by
  intro r
  have hid : Text.isBlank noteId = false := isBlank_contentId 1 note.deviceId _
  have hb : r.bindingOf? 0 = some ⟨"home", .forSubject "ada" "home"⟩ := rfl
  obtain ⟨hfound, -, hhash⟩ := itemText_answered { enabled := true } 10 _ 2 hb hid
  have hitem : textItem "home" noteChange ∈
      (r.histories.room (.forSubject "ada" "home")).items := List.mem_singleton.mpr rfl
  obtain ⟨text, htext⟩ := hfound.mpr (.inl ⟨_, hitem, rfl, rfl⟩)
  exact ⟨hid, text, htext, hhash text htext _ hitem rfl⟩

/-- Where a room keeps one item only, a file with the bytes of the note takes its
place and its id, and the note is found though just the file is kept. -/
theorem itemText_answered_file :
    let r := (empty { enabled := true } 1).run
      [.connect (some ⟨"ada", none⟩) 8, .call 1 0 (.joinRoom "home" ""),
        .call 1 0 (.publishText note), .call 1 0 (.publishFile noteFile)]
    let room := r.histories.room (.forSubject "ada" "home")
    r.bindingOf? 0 = some ⟨"home", .forSubject "ada" "home"⟩ ∧
      Text.isBlank noteId = false ∧
      room.Retains noteId .file ∧ ¬room.Retains noteId .text ∧
      ∃ text, (r.perform 2 0 (.getHistoryText noteId)).1 = .ok (.historyText ⟨noteId, text⟩) := by
  intro r room
  have hb : r.bindingOf? 0 = some ⟨"home", .forSubject "ada" "home"⟩ := rfl
  have hid : Text.isBlank noteId = false := isBlank_contentId 1 note.deviceId _
  obtain ⟨file, hitems, hfile, hkind⟩ :
      ∃ file, room.items = [file] ∧ file.id = noteId ∧ file.kind = .file := ⟨_, rfl, rfl, rfl⟩
  have htext : (room.texts.get? noteId).isSome := by
    have hr := reflects_run { enabled := true } 1 [.connect (some ⟨"ada", none⟩) 8,
      .call 1 0 (.joinRoom "home" ""), .call 1 0 (.publishText note),
      .call 1 0 (.publishFile noteFile)] (.forSubject "ada" "home")
    -- The file follows the note at once, so that the note never had to go.
    refine (hr.lasting noteId).mpr ⟨[_], _, [], rfl, rfl, rfl, fun since hsince => ?_⟩
    obtain rfl | hnil := List.suffix_cons_iff.mp hsince
    · exact ⟨_, List.mem_singleton.mpr rfl, rfl⟩
    · rw [List.suffix_nil.mp hnil]
      exact ⟨_, List.mem_singleton.mpr rfl, rfl⟩
  refine ⟨hb, hid, ⟨file, by simp [hitems], hfile, hkind⟩, ?_, ?_⟩
  · rintro ⟨i, hi, -, htextual⟩
    rw [hitems, List.mem_singleton] at hi
    rw [hi, hkind] at htextual
    cases htextual
  · obtain ⟨text, htext⟩ := Option.isSome_iff_exists.mp htext
    exact ⟨text, answer_getHistoryText hb hid htext 2⟩

end Relay

end ClipRelay
