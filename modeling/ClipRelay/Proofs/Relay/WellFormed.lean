import ClipRelay.Proofs.Relay.Postings

/-!
# ClipRelay.Proofs.Relay.WellFormed

What the relay keeps is well formed.

Each kind of publish is checked, completed and normalised in its own order, and
what comes out is well formed (`wellFormed_of_ofRequest?`).  Nothing else gets
into the stores, since what a room keeps is a view of what was posted there.
-/

namespace ClipRelay

open Relay

/-! ## Well-formed contents -/

/-- A text from a device that says who it is, no longer than allowed, with its hash. -/
structure TextChange.WellFormed (c : TextChange) : Prop where
  origin : c.origin.isNil = false
  size : c.text.utf8ByteSize ≤ 262144
  hash : c.textHash = Sha256.digest (Bytes.ofText c.text)

/-- Nothing is wrong with a pointer. -/
def Pointer.WellFormed (p : Pointer) : Prop := ∀ fault, ¬p.Has fault

/-- An item that is named after its content and fits its kind. -/
structure HistoryItem.WellFormed (i : HistoryItem) : Prop extends i.Named where
  size_text : i.kind = .text → 0 ≤ i.sizeBytes.toInt ∧ i.sizeBytes.toInt ≤ 262144
  preview_text : i.kind = .text → i.preview = some i.title
  size_file : i.kind = .file → 1 ≤ i.sizeBytes.toInt ∧ i.sizeBytes.toInt ≤ 10485760
  preview_file : i.kind = .file → i.preview = none
  title_file : i.kind = .file → Text.isBlank i.title = false
  contentType_file : i.kind = .file → Text.isBlank i.contentType = false

/-- The bytes of a file item: so many as it says, with its hash. -/
structure HistoryItem.Holds (i : HistoryItem) (bytes : Bytes) : Prop where
  file : i.kind = .file
  hash : Sha256.digest bytes = i.contentHash
  pos : 1 ≤ bytes.length
  le : bytes.length ≤ 10485760
  size : i.sizeBytes.toInt = bytes.length

/-- What is published is well formed. -/
def Publication.WellFormed : Publication → Prop
  | .text _ change => change.WellFormed
  | .pointer p => p.WellFormed
  | .file item bytes => item.WellFormed ∧ item.Holds bytes

namespace Relay

theorem toInt_ofNat_of_le {n : Nat} (h : n ≤ maxFileSize) : (Int64.ofNat n).toInt = n :=
  Int64.toInt_ofNat_of_lt (Nat.lt_of_le_of_lt h (by decide))

theorem isBlank_orDefault {s default : String} (h : Text.isBlank default = false) :
    Text.isBlank (orDefault s default) = false := by
  unfold orDefault
  split
  · exact h
  · next hs => exact Bool.eq_false_iff.mpr hs

/-! ## What is accepted -/

theorem wellFormed_of_acceptText {now : Timestamp} {p : TextPublish} {change : TextChange}
    (h : acceptText now p = .ok change) : change.WellFormed := by
  unfold acceptText at h
  split at h
  · contradiction
  · next hdevice =>
    split at h
    · contradiction
    · split at h
      · contradiction
      · next hsize =>
        rw [← Except.ok.inj h]
        exact ⟨Bool.eq_false_iff.mpr hdevice, Nat.le_of_not_lt hsize, hashToKeep_eq p⟩

theorem sizeBytes_textItem {change : TextChange} (h : change.WellFormed) (roomId : String) :
    (textItem roomId change).sizeBytes.toInt = change.text.utf8ByteSize :=
  toInt_ofNat_of_le (Nat.le_trans h.size (by decide))

/-- The item of a text is as well formed as the text. -/
theorem wellFormed_textItem {change : TextChange} (h : change.WellFormed) (roomId : String) :
    (textItem roomId change).WellFormed := by
  have hhash : change.textHash.length = Sha256.size :=
    (congrArg List.length h.hash).trans (Sha256.length_digest _)
  refine ⟨⟨rfl, hhash⟩, fun _ => ?_, fun _ => rfl, ?_, ?_, ?_, ?_⟩
  · have hle := h.size
    rw [sizeBytes_textItem h]
    omega
  all_goals
    intro hfile
    cases hfile

theorem wellFormed_of_acceptPointer {account : AccountSettings} {b : Binding} {p p' : Pointer}
    (h : acceptPointer account b p = .ok p') : p'.WellFormed := by
  unfold acceptPointer at h
  split at h
  · contradiction
  · simp only at h
    split at h
    · contradiction
    · next hnone =>
      rw [← Except.ok.inj h]
      have hfinds := finds_pointerFault? { p with roomId := b.roomId }
      rw [hnone] at hfinds
      exact hfinds

theorem wellFormed_of_acceptFile {roomId : String} {now : Timestamp} {p : FilePublish}
    {item : HistoryItem} (h : acceptFile roomId now p = .ok item) :
    item.WellFormed ∧ item.Holds p.bytes := by
  have hnamed := named_of_acceptFile h
  obtain ⟨hbytes, hle, hfile⟩ := of_acceptFile h
  have hpos : 1 ≤ p.bytes.length := by
    rw [Nat.succ_le_iff, List.length_pos_iff, ne_eq, ← List.isEmpty_iff, hbytes]
    exact Bool.false_ne_true
  unfold acceptFile at h
  repeat' split at h
  · contradiction
  · contradiction
  · contradiction
  · have hitem := Except.ok.inj h
    have hsize : item.sizeBytes.toInt = p.bytes.length := by
      rw [← hitem]
      exact toInt_ofNat_of_le hle
    have hlimit : maxFileSize = 10485760 := rfl
    refine ⟨⟨hnamed, ?_, ?_, fun _ => ?_, fun _ => ?_, fun _ => ?_, fun _ => ?_⟩,
      hfile, ?_, hpos, hle, hsize⟩
    · intro htext
      rw [hfile] at htext
      cases htext
    · intro htext
      rw [hfile] at htext
      cases htext
    · rw [hsize]
      omega
    · rw [← hitem]
    · rw [← hitem]
      exact isBlank_orDefault (by decide)
    · rw [← hitem]
      exact isBlank_orDefault (by decide)
    · rw [← hitem]

theorem wellFormed_of_ofRequest? {account : AccountSettings} {b : Binding} {now : Timestamp}
    {request : Request} {p : Publication}
    (h : Publication.ofRequest? account b now request = some p) : p.WellFormed := by
  cases request with
  | publishText q =>
      obtain ⟨change, hchange, rfl⟩ := Option.map_eq_some_iff.mp h
      exact wellFormed_of_acceptText (eq_ok_of_toOption hchange)
  | publishPointer q =>
      obtain ⟨pointer, hpointer, rfl⟩ := Option.map_eq_some_iff.mp h
      exact wellFormed_of_acceptPointer (eq_ok_of_toOption hpointer)
  | publishFile q =>
      obtain ⟨item, hitem, rfl⟩ := Option.map_eq_some_iff.mp h
      exact wellFormed_of_acceptFile (eq_ok_of_toOption hitem)
  | _ => cases h

/-- The item that a well-formed publication adds is well formed. -/
theorem wellFormed_item? {p : Publication} {i : HistoryItem} (h : p.WellFormed)
    (hi : p.item? = some i) : i.WellFormed := by
  cases p with
  | text roomId change =>
      cases hi
      exact wellFormed_textItem h roomId
  | pointer p => cases hi
  | file item bytes =>
      cases hi
      exact h.1

/-! ## What is kept -/

section
variable {account : AccountSettings} {capacity : Nat} {actions : List Action}

theorem wellFormed_of_mem_postings {post : Posting}
    (h : post ∈ (empty account capacity).postings actions) : post.publication.WellFormed := by
  have hempty : Reachable account capacity (empty account capacity) := .empty
  obtain ⟨r, a, -, hposting⟩ := hempty.exists_of_mem_postings h
  obtain ⟨now, id, request, s, b, -, -, -, -, -, hrequest, -⟩ := exists_of_posting? hposting
  exact wellFormed_of_ofRequest? hrequest

end

/-- **What is kept is well formed**: after any run, the latest text of a room is from
a device that says who it is, at most 262144 bytes long, and has the hash of its
content.  Nothing is wrong with the latest pointer.  Every item of the history is
named after its time, its device and its content hash, and has a size, a title, a
preview and a content type that fit its kind.  And the room id of the pointer and
of every item names the room, with the subject of the session that published it
where accounts have rooms of their own. -/
theorem stored_wellFormed (account : AccountSettings) (capacity : Nat) (actions : List Action)
    (key : RoomKey) :
    let r := (empty account capacity).run actions
    let postings := (empty account capacity).postings actions
    (∀ c, r.texts.get? key = some c → c.WellFormed) ∧
    (∀ p, r.pointers.get? key = some p → p.WellFormed ∧
      ∃ post ∈ postings, post.key = key ∧ post.publication = .pointer p ∧
        post.Names account p.roomId) ∧
    ∀ i ∈ (r.histories.room key).items, i.WellFormed ∧
      ∃ post ∈ postings, post.key = key ∧ post.publication.item? = some i ∧
        post.Names account i.roomId := by
  intro r postings
  refine ⟨fun c hc => ?_, fun p hp => ?_, fun i hi => ?_⟩
  · rw [text_posted] at hc
    obtain ⟨post, hpost, -, htext⟩ := exists_posting_of_mem (List.mem_of_getLast? hc)
    obtain ⟨roomId, hpublication⟩ := Publication.text?_eq_some_iff.mp htext
    have hwell := wellFormed_of_mem_postings hpost
    rwa [hpublication] at hwell
  · rw [pointer_posted] at hp
    obtain ⟨post, hpost, hkey, hpointer⟩ := exists_posting_of_mem (List.mem_of_getLast? hp)
    have hpublication := Publication.pointer?_eq_some_iff.mp hpointer
    have hwell := wellFormed_of_mem_postings hpost
    have hnames := names_of_mem_postings hpost
    rw [hpublication] at hwell hnames
    exact ⟨hwell, post, hpost, hkey, hpublication, hnames⟩
  · rw [items_posted] at hi
    obtain ⟨post, hpost, hkey, hitem⟩ :=
      exists_posting_of_mem (List.mem_reverse.mp (List.mem_of_mem_take hi))
    have hnames := names_of_mem_postings hpost
    rw [Publication.roomId_of_item? hitem] at hnames
    exact ⟨wellFormed_item? (wellFormed_of_mem_postings hpost) hitem, post, hpost, hkey, hitem,
      hnames⟩

end Relay

end ClipRelay
