import ClipRelay.Binary.Format
import ClipRelay.Call

/-!
# ClipRelay.Binary.Messages

The binary form of every message of the protocol.

A record is its fields in order; a choice is numbered in the order in which its
alternatives are declared.  `Message` lists the messages by name, each with the
type of its values and its format, so that a statement about the protocol is a
statement about all `m : Message`.
-/

namespace ClipRelay.Binary

open Format

/-! ## Clips -/

def textPublish : Format TextPublish :=
  (uuid.seq <| uuid.seq <| int64.seq <| text.seq bytes).iso
    (fun (deviceId, clientItemId, clientTime, text, textHash) =>
      { deviceId, clientItemId, clientTime, text, textHash })
    (fun p => (p.deviceId, p.clientItemId, p.clientTime, p.text, p.textHash))

def textChange : Format TextChange :=
  (uuid.seq <| int64.seq <| text.seq bytes).iso
    (fun (origin, serverTime, text, textHash) => { origin, serverTime, text, textHash })
    (fun c => (c.origin, c.serverTime, c.text, c.textHash))

def pointer : Format Pointer :=
  (text.seq <| uuid.seq <| int64.seq <| text.seq <| text.option.seq <| bytes.seq <|
    int64.seq text).iso
    (fun (roomId, origin, time, objectKey, providerFileId, contentHash, sizeBytes, contentType) =>
      { roomId, origin, time, objectKey, providerFileId, contentHash, sizeBytes, contentType })
    (fun p => (p.roomId, p.origin, p.time, p.objectKey, p.providerFileId, p.contentHash,
      p.sizeBytes, p.contentType))

def filePublish : Format FilePublish :=
  (uuid.seq <| text.seq <| text.seq bytes).iso
    (fun (deviceId, fileName, contentType, bytes) => { deviceId, fileName, contentType, bytes })
    (fun p => (p.deviceId, p.fileName, p.contentType, p.bytes))

/-! ## History -/

def historyKind : Format HistoryKind :=
  choice (fun k => k.toByte.toNat) (fun _ => []) fun
    | 0 => constant .text
    | 1 => constant .file
    | _ => unknown

def historyItem : Format HistoryItem :=
  (text.seq <| text.seq <| historyKind.seq <| uuid.seq <| int64.seq <| text.seq <|
    text.option.seq <| int64.seq <| bytes.seq <| text.seq <| text.option.seq text.option).iso
    (fun (id, roomId, kind, origin, time, title, preview, sizeBytes, contentHash, contentType,
        providerFileId, objectKey) =>
      { id, roomId, kind, origin, time, title, preview, sizeBytes, contentHash, contentType,
        providerFileId, objectKey })
    (fun i => (i.id, i.roomId, i.kind, i.origin, i.time, i.title, i.preview, i.sizeBytes,
      i.contentHash, i.contentType, i.providerFileId, i.objectKey))

def historyList : Format HistoryList :=
  (text.seq (list historyItem)).iso
    (fun (roomId, items) => { roomId, items }) (fun l => (l.roomId, l.items))

def historyText : Format HistoryText :=
  (text.seq text).iso (fun (itemId, text) => { itemId, text }) (fun t => (t.itemId, t.text))

/-! ## Calls, answers and events -/

/-- The number of a call's method. -/
def requestNumber : Request → Nat
  | .joinRoom .. => 0
  | .publishText _ => 1
  | .publishPointer _ => 2
  | .publishFile _ => 3
  | .getHistory _ => 4
  | .getHistoryText _ => 5

def encodeRequest : Request → Bytes
  | .joinRoom roomId roomSecret => (text.seq text).encode (roomId, roomSecret)
  | .publishText publish => textPublish.encode publish
  | .publishPointer p => pointer.encode p
  | .publishFile publish => filePublish.encode publish
  | .getHistory limit => int32.encode limit
  | .getHistoryText itemId => text.encode itemId

def request : Format Request :=
  choice requestNumber encodeRequest fun
    | 0 => alternative (text.seq text) fun (roomId, secret) => .joinRoom roomId secret
    | 1 => alternative textPublish .publishText
    | 2 => alternative pointer .publishPointer
    | 3 => alternative filePublish .publishFile
    | 4 => alternative int32 .getHistory
    | 5 => alternative text .getHistoryText
    | _ => unknown

/-- The number of an answer. -/
def responseNumber : Response → Nat
  | .joined => 0
  | .published => 1
  | .history _ => 2
  | .historyText _ => 3

def encodeResponse : Response → Bytes
  | .joined => []
  | .published => []
  | .history h => historyList.encode h
  | .historyText t => historyText.encode t

def response : Format Response :=
  choice responseNumber encodeResponse fun
    | 0 => constant .joined
    | 1 => constant .published
    | 2 => alternative historyList .history
    | 3 => alternative historyText .historyText
    | _ => unknown

/-- The number of an event. -/
def eventNumber : Event → Nat
  | .textChanged _ => 0
  | .pointerChanged _ => 1
  | .historyItemAdded _ => 2

def encodeEvent : Event → Bytes
  | .textChanged c => textChange.encode c
  | .pointerChanged p => pointer.encode p
  | .historyItemAdded i => historyItem.encode i

def event : Format Event :=
  choice eventNumber encodeEvent fun
    | 0 => alternative textChange .textChanged
    | 1 => alternative pointer .pointerChanged
    | 2 => alternative historyItem .historyItemAdded
    | _ => unknown

/-- The number of a kind of failure. -/
def callErrorNumber : CallErrorKind → Nat
  | .validation => 0
  | .invalidCredential => 1
  | .notJoined => 2
  | .configuration => 3
  | .notFound => 4

def callErrorKind : Format CallErrorKind :=
  choice callErrorNumber (fun _ => []) fun
    | 0 => constant .validation
    | 1 => constant .invalidCredential
    | 2 => constant .notJoined
    | 3 => constant .configuration
    | 4 => constant .notFound
    | _ => unknown

def callError : Format CallError :=
  (callErrorKind.seq text).iso
    (fun (kind, message) => { kind, message }) (fun e => (e.kind, e.message))

/-- The number of a result: 0 if the call succeeded, 1 if it failed. -/
def outcomeNumber : Outcome → Nat
  | .ok _ => 0
  | .error _ => 1

def encodeOutcome : Outcome → Bytes
  | .ok r => response.encode r
  | .error e => callError.encode e

def outcome : Format Outcome :=
  choice outcomeNumber encodeOutcome fun
    | 0 => alternative response .ok
    | 1 => alternative callError .error
    | _ => unknown

/-! ## Frames -/

def deviceFrame : Format DeviceFrame :=
  choice (fun _ => 0) (fun f => (uint64.seq request).encode (f.callId, f.request)) fun
    | 0 => alternative (uint64.seq request) fun (callId, request) => { callId, request }
    | _ => unknown

/-- The number of a frame of the relay. -/
def relayFrameNumber : RelayFrame → Nat
  | .completion .. => 0
  | .event _ => 1

def encodeRelayFrame : RelayFrame → Bytes
  | .completion callId o => (uint64.seq outcome).encode (callId, o)
  | .event e => event.encode e

def relayFrame : Format RelayFrame :=
  choice relayFrameNumber encodeRelayFrame fun
    | 0 => alternative (uint64.seq outcome) fun (callId, o) => .completion callId o
    | 1 => alternative event .event
    | _ => unknown

/-! ## The messages by name -/

/-- The messages of the protocol. -/
inductive Message where
  | clipboardPublish
  | clipboardChanged
  | clipboardItemPointer
  | clipboardPointerPublish
  | clipboardPointerChanged
  | historyItem
  | historyList
  | getHistoryRequest
  | getHistoryResponse
  | historyItemAdded
  | getHistoryTextRequest
  | getHistoryTextResponse
  | clipboardFilePublish
  | hubRequest
  | hubResponse
  | hubEvent
  | rpcError
  | clientFrame
  | serverFrame
deriving DecidableEq, Repr

/-- All messages with their names. -/
def Message.names : List (String × Message) :=
  [("ClipboardPublish", .clipboardPublish), ("ClipboardChanged", .clipboardChanged),
    ("ClipboardItemPointer", .clipboardItemPointer),
    ("ClipboardPointerPublish", .clipboardPointerPublish),
    ("ClipboardPointerChanged", .clipboardPointerChanged), ("HistoryItem", .historyItem),
    ("HistoryList", .historyList), ("GetHistoryRequest", .getHistoryRequest),
    ("GetHistoryResponse", .getHistoryResponse), ("HistoryItemAdded", .historyItemAdded),
    ("GetHistoryTextRequest", .getHistoryTextRequest),
    ("GetHistoryTextResponse", .getHistoryTextResponse),
    ("ClipboardFilePublish", .clipboardFilePublish), ("HubRequest", .hubRequest),
    ("HubResponse", .hubResponse), ("HubEvent", .hubEvent), ("RpcError", .rpcError),
    ("ClientFrame", .clientFrame), ("ServerFrame", .serverFrame)]

/-- The message of a name. -/
def Message.named? (name : String) : Option Message := Message.names.lookup name

/-- The type of a message's values.  A message that holds one thing only is
that thing. -/
abbrev Message.Value : Message → Type
  | .clipboardPublish => TextPublish
  | .clipboardChanged => TextChange
  | .clipboardItemPointer | .clipboardPointerPublish | .clipboardPointerChanged => Pointer
  | .historyItem | .historyItemAdded => HistoryItem
  | .historyList | .getHistoryResponse => HistoryList
  | .getHistoryRequest => Int32
  | .getHistoryTextRequest => String
  | .getHistoryTextResponse => HistoryText
  | .clipboardFilePublish => FilePublish
  | .hubRequest => Request
  | .hubResponse => Response
  | .hubEvent => Event
  | .rpcError => CallError
  | .clientFrame => DeviceFrame
  | .serverFrame => RelayFrame

/-- The binary form of a message. -/
def Message.format : (m : Message) → Format m.Value
  | .clipboardPublish => textPublish
  | .clipboardChanged => textChange
  | .clipboardItemPointer | .clipboardPointerPublish | .clipboardPointerChanged => pointer
  | .historyItem | .historyItemAdded => Binary.historyItem
  | .historyList | .getHistoryResponse => Binary.historyList
  | .getHistoryRequest => int32
  | .getHistoryTextRequest => text
  | .getHistoryTextResponse => historyText
  | .clipboardFilePublish => filePublish
  | .hubRequest => request
  | .hubResponse => response
  | .hubEvent => event
  | .rpcError => callError
  | .clientFrame => deviceFrame
  | .serverFrame => relayFrame

/-- The bytes of a message. -/
def encode (m : Message) (v : m.Value) : Bytes := m.format.encode v

/-- The message at the front of a byte string; whatever follows it is ignored. -/
def decode (m : Message) (bs : Bytes) : Except DecodeError m.Value :=
  (m.format.decode bs).map Prod.fst

end ClipRelay.Binary
