import ClipRelay.Uuid

/-!
# ClipRelay.Clip.Content

What devices put on the shared clipboard: texts, pointers to stored payloads,
and files, with the limits on each.

Times are milliseconds since the Unix epoch, in UTC.
-/

namespace ClipRelay

/-- A time in milliseconds since the Unix epoch, in UTC. -/
abbrev Timestamp := Int64

/-! ## Limits -/

/-- The longest text the relay carries, in bytes of UTF-8. -/
def maxTextSize : Nat := 262144

/-- The largest file the relay carries, in bytes. -/
def maxFileSize : Nat := 10485760

/-- The number of characters of a title or preview made from a text. -/
def summaryLength : Nat := 120

/-- The first `n` characters of a text. -/
def truncate (n : Nat) (s : String) : String := String.ofList (s.toList.take n)

/-! ## Texts -/

/-- A text that a device publishes. -/
structure TextPublish where
  deviceId : Uuid
  clientItemId : Uuid
  clientTime : Timestamp
  text : String
  textHash : Bytes
deriving DecidableEq

/-- The text now on a room's clipboard. -/
structure TextChange where
  origin : Uuid
  serverTime : Timestamp
  text : String
  textHash : Bytes
deriving DecidableEq

/-! ## Pointers -/

/-- The clipboard content by reference: where the payload is stored and what it is. -/
structure Pointer where
  roomId : String
  origin : Uuid
  time : Timestamp
  objectKey : String
  providerFileId : Option String
  contentHash : Bytes
  sizeBytes : Int64
  contentType : String
deriving DecidableEq

/-! ## Files -/

/-- A file that a device publishes. -/
structure FilePublish where
  deviceId : Uuid
  fileName : String
  contentType : String
  bytes : Bytes
deriving DecidableEq

end ClipRelay
