import ClipRelay.Device.Manifest

/-!
# ClipRelay.Proofs.Device.ManifestItems

What an entry of a manifest keeps of the pointer that it was made of, and what is listed of any
entry.

An entry holds the hash of its content as text.  An entry made here holds a text that denotes the
hash, so that the item listed of it has the hash of the pointer, whatever its bytes are.  But a
manifest is shared, and its text may have been written elsewhere or have suffered: the digits
may be of either letter case, and what cannot be read is listed with an empty hash.  Nothing
but the hash of the item depends on that text (`ManifestEntry.item_of_pointer`).
-/

namespace ClipRelay.ManifestEntry

variable {roomId : String} {i : ManifestEntry}

/-- The text that a new entry holds denotes the hash of its pointer. -/
theorem denotes_ofPointer (p : Pointer) (kind : HistoryKind) (title : String)
    (preview : Option String) :
    Hex.Denotes (ofPointer p kind title preview).contentHash.toList p.contentHash :=
  Hex.decode?_eq_some_iff.mp (Hex.decode?_encode .upper p.contentHash)

/-- The hash of an item is what the text of its entry denotes, which is nothing if the text is
damaged. -/
theorem denotes_contentHash_iff {bs : Bytes} : Hex.Denotes i.contentHash.toList bs ↔
    bs = (i.toHistoryItem roomId).contentHash ∧ ¬Hex.Damaged i.contentHash := by
  rw [← Hex.decode?_eq_some_iff, ← Hex.decode?_eq_none_iff, toHistoryItem]
  cases Hex.decode? i.contentHash with
  | none => simp
  | some hash => simp [eq_comm]

/-- The hash of an item is left out just if the text of its entry is damaged or empty. -/
theorem contentHash_eq_nil_iff : (i.toHistoryItem roomId).contentHash = [] ↔
    i.contentHash = "" ∨ Hex.Damaged i.contentHash := by
  rw [← Hex.decode?_eq_some_nil_iff, ← Hex.decode?_eq_none_iff, toHistoryItem]
  cases Hex.decode? i.contentHash <;> simp

/-- **Items keep their pointer**: an entry made of a pointer holds a text that denotes the
pointer's hash, and the item listed of it has all that the pointer tells, its hash byte by byte,
the kind, title and preview that were given and the name of the content.  Of any entry an item
is listed that has all of its members; its hash is what the text of the entry denotes, and is
empty just if that text is empty or damaged. -/
theorem item_of_pointer (roomId : String) :
    (∀ (p : Pointer) (kind : HistoryKind) (title : String) (preview : Option String),
      Hex.Denotes (ofPointer p kind title preview).contentHash.toList p.contentHash ∧
      (ofPointer p kind title preview).toHistoryItem roomId =
        { id := contentId p.time p.origin p.contentHash, roomId, kind, origin := p.origin,
          time := p.time, title, preview, sizeBytes := p.sizeBytes, contentHash := p.contentHash,
          contentType := p.contentType, providerFileId := p.providerFileId,
          objectKey := some p.objectKey }) ∧
    ∀ i : ManifestEntry, ∃ hash,
      i.toHistoryItem roomId =
        { id := i.id, roomId, kind := i.kind, origin := i.origin, time := i.time,
          title := i.title, preview := i.preview, sizeBytes := i.sizeBytes, contentHash := hash,
          contentType := i.contentType, providerFileId := i.providerFileId,
          objectKey := i.objectKey } ∧
      (∀ bs, Hex.Denotes i.contentHash.toList bs ↔ bs = hash ∧ ¬Hex.Damaged i.contentHash) ∧
      (hash = [] ↔ i.contentHash = "" ∨ Hex.Damaged i.contentHash) := by
  constructor
  · intro p kind title preview
    refine ⟨denotes_ofPointer p kind title preview, ?_⟩
    simp only [toHistoryItem, ofPointer, Hex.decode?_encode, Option.getD_some]
  · intro i
    exact ⟨(i.toHistoryItem roomId).contentHash, rfl, fun _ => denotes_contentHash_iff,
      contentHash_eq_nil_iff⟩

end ClipRelay.ManifestEntry
