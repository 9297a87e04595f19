import ClipRelay.Clip.History

/-!
# ClipRelay.Call

The calls a device makes on the relay, the answers, and the events the relay
sends on its own account.

A device sends `DeviceFrame`s, the relay sends `RelayFrame`s: completions of
calls, and events.
-/

namespace ClipRelay

/-- A call. -/
inductive Request where
  | joinRoom (roomId roomSecret : String)
  | publishText (publish : TextPublish)
  | publishPointer (pointer : Pointer)
  | publishFile (publish : FilePublish)
  | getHistory (limit : Int32)
  | getHistoryText (itemId : String)
deriving DecidableEq

/-- The name of the method that a call invokes. -/
def Request.method : Request → String
  | .joinRoom .. => "JoinRoom"
  | .publishText _ => "ClipboardPublish"
  | .publishPointer _ => "ClipboardPointerPublish"
  | .publishFile _ => "FilePublish"
  | .getHistory _ => "GetHistory"
  | .getHistoryText _ => "GetHistoryText"

/-- The answer to a call that succeeded. -/
inductive Response where
  | joined
  | published
  | history (history : HistoryList)
  | historyText (answer : HistoryText)
deriving DecidableEq

/-- Something that happened in a room. -/
inductive Event where
  | textChanged (change : TextChange)
  | pointerChanged (pointer : Pointer)
  | historyItemAdded (item : HistoryItem)
deriving DecidableEq

/-! ## Failed calls -/

/-- The kinds of failure a call can have. -/
inductive CallErrorKind where
  | validation
  | invalidCredential
  | notJoined
  | configuration
  | notFound
deriving DecidableEq, Repr

/-- The name of a kind of failure. -/
def CallErrorKind.name : CallErrorKind → String
  | .validation => "Validation"
  | .invalidCredential => "InvalidCredential"
  | .notJoined => "NotJoined"
  | .configuration => "Configuration"
  | .notFound => "NotFound"

/-- The answer to a call that failed. -/
structure CallError where
  kind : CallErrorKind
  message : String
deriving DecidableEq

/-- A failure as one line of text. -/
def CallError.describe (e : CallError) : String := e.kind.name ++ ": " ++ e.message

/-- The result of a call. -/
abbrev Outcome := Except CallError Response

/-! ## Frames -/

/-- What a device sends: a call, under a number of its choice. -/
structure DeviceFrame where
  callId : UInt64
  request : Request
deriving DecidableEq

/-- What the relay sends. -/
inductive RelayFrame where
  | completion (callId : UInt64) (outcome : Outcome)
  | event (event : Event)

end ClipRelay
