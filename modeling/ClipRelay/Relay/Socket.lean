import ClipRelay.Binary.Messages
import ClipRelay.Relay.Run

/-!
# ClipRelay.Relay.Socket

The relay's end of a WebSocket: from the messages of a client to calls, and
from the outcomes back to frames.

A binary message that is a call is made, and its completion is queued behind
every event that the call brought to the same session.  Text messages, pings
and bytes that are no call are passed over.  A message over the limit, and the
closing of the socket, end the session.

`Relay.serve` takes one turn after another: the messages of all clients, each dealt
with before the next, and whatever else happens between them.
-/

namespace ClipRelay

/-- A message from a client. -/
inductive SocketMessage where
  | binary (bytes : Bytes)
  | text (text : String)
  | ping
  | close

/-- The longest single frame of a message, in bytes. -/
def maxFrameBytes : Nat := 16777216

namespace Relay

/-- The number of bytes of a message. -/
def messageSize : SocketMessage → Nat
  | .binary bytes => bytes.length
  | .text text => text.utf8ByteSize
  | _ => 0

/-- Makes the call in a frame and queues its completion. -/
def invoke (r : Relay) (now : Timestamp) (id : SessionId) (frame : DeviceFrame) : Relay :=
  let (result, r) := r.perform now id frame.request
  match r.sessions.get? id with
  | none => r
  | some s => r.send s (.completion frame.callId (result.mapError Refusal.toCallError))

/-- Takes in a message of a client; messages may be `maxMessage` bytes long. -/
def receive (r : Relay) (maxMessage : Nat) (now : Timestamp) (id : SessionId)
    (message : SocketMessage) : Relay :=
  if min maxMessage maxFrameBytes < messageSize message then (r.disconnect id).dropQueue id
  else match message with
    | .binary bytes =>
      match Binary.decode .clientFrame bytes with
      | .ok frame => r.invoke now id frame
      | .error _ => r
    | .close => (r.disconnect id).dropQueue id
    | .text _ | .ping => r

/-! ## Whole runs -/

/-- What can happen to a relay that is reached through sockets. -/
inductive Turn where
  /-- A client sends a message. -/
  | message (now : Timestamp) (id : SessionId) (message : SocketMessage)
  /-- Anything else happens. -/
  | act (a : Action)

/-- Takes one turn. -/
def turn (r : Relay) (maxMessage : Nat) : Turn → Relay
  | .message now id message => r.receive maxMessage now id message
  | .act a => (r.step a).2

/-- The relay after some turns. -/
def serve (r : Relay) (maxMessage : Nat) : List Turn → Relay
  | [] => r
  | t :: ts => serve (r.turn maxMessage t) maxMessage ts

end Relay

end ClipRelay
