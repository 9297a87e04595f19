import ClipRelay.Account.Credential
import ClipRelay.Relay.Payloads

/-!
# ClipRelay.Relay.Refusal

Why the relay refuses a call.
-/

namespace ClipRelay

/-- What is wrong with a pointer. -/
inductive PointerFault where
  | originMissing
  | timeNotPositive
  | objectKeyMissing
  | hashLength
  | sizeNegative
  | contentTypeMissing
deriving DecidableEq, Repr

/-- Why a call is refused. -/
inductive Refusal where
  -- joining
  | authenticationRequired
  | invalidRoomCredentials
  | joinedElsewhere
  | notJoined
  -- publishing
  | deviceIdMissing
  | clientItemIdMissing
  | textTooLong
  | pointerRoomMismatch
  | pointer (fault : PointerFault)
  | bytesMissing
  | fileTooLong
  | notStored (error : PayloadError)
  -- reading
  | itemIdMissing
  | itemNotFound (itemId : String)
deriving DecidableEq, Repr

def PointerFault.message : PointerFault → String
  | .originMissing => "originDeviceId is required"
  | .timeNotPositive => "tsUtcMs must be positive"
  | .objectKeyMissing => "objectKey is required"
  | .hashLength => "contentHash must be 32 bytes"
  | .sizeNegative => "sizeBytes must not be negative"
  | .contentTypeMissing => "contentType is required"

namespace Refusal

/-- The kind of failure that a cause leads to. -/
def kind : Refusal → CallErrorKind
  | .authenticationRequired | .invalidRoomCredentials => .invalidCredential
  | .notJoined => .notJoined
  | .itemNotFound _ => .notFound
  | _ => .validation

/-- The wording of a cause. -/
def message : Refusal → String
  | .authenticationRequired => "authentication required: connect with a relay bearer token"
  | .invalidRoomCredentials => "invalid room id or secret"
  | .joinedElsewhere => "session is already joined to a different room"
  | .notJoined => "JoinRoom must be called first"
  | .deviceIdMissing => "deviceId is required"
  | .clientItemIdMissing => "clientItemId is required"
  | .textTooLong => s!"text exceeds max of {maxTextSize} UTF-8 bytes"
  | .pointerRoomMismatch => "pointer roomId does not match the joined room"
  | .pointer fault => fault.message
  | .bytesMissing => "bytes are required"
  | .fileTooLong => s!"file exceeds max of {maxFileSize} bytes"
  | .notStored error => error.message
  | .itemIdMissing => "itemId is required"
  | .itemNotFound itemId => "history item " ++ itemId ++ " not found"

/-- The answer to a call that is refused. -/
def toCallError (e : Refusal) : CallError := ⟨e.kind, e.message⟩

end Refusal

end ClipRelay
