import ClipRelay.Clip.Content

/-!
# ClipRelay.Clip.History

The items of a room's history, as the relay sends them.
-/

namespace ClipRelay

/-- What a history item is. -/
inductive HistoryKind where
  | text
  | file
deriving DecidableEq, Repr

namespace HistoryKind

/-- The number of a kind on the wire. -/
def toByte : HistoryKind → UInt8
  | .text => 0
  | .file => 1

/-- The kind with a number. -/
def ofByte? (b : UInt8) : Option HistoryKind :=
  if b = 0 then some .text else if b = 1 then some .file else none

@[simp] theorem ofByte?_toByte (k : HistoryKind) : ofByte? k.toByte = some k := by
  cases k <;> rfl

end HistoryKind

/-- One entry of a history. -/
structure HistoryItem where
  id : String
  roomId : String
  kind : HistoryKind
  origin : Uuid
  time : Timestamp
  title : String
  preview : Option String
  sizeBytes : Int64
  contentHash : Bytes
  contentType : String
  providerFileId : Option String
  objectKey : Option String
deriving DecidableEq

/-- The recent items of a room, newest first. -/
structure HistoryList where
  roomId : String
  items : List HistoryItem
deriving DecidableEq

/-- The full text of a history item. -/
structure HistoryText where
  itemId : String
  text : String
deriving DecidableEq

end ClipRelay
