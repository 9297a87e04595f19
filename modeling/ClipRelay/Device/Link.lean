import ClipRelay.Binary.Messages
import ClipRelay.Device.Settings
import ClipRelay.Table

/-!
# ClipRelay.Device.Link

A device's session with the relay, which is opened again whenever it breaks.

The link is a value that changes with what happens to its socket
(`step`) and with the calls that are made on it (`call`).  Every call has a
number of its own, and waits under it until a completion of that number comes
in, its time is up, or the socket closes.  After each opening the device joins
its room again by itself.  Attempts to open the socket are spaced out more and
more, up to half a minute.

What a completion brings about, such as the state `joined`, happens with it; who
made the call is not told any later.
-/

namespace ClipRelay

/-- What a link reports about itself. -/
inductive LinkState where
  | connecting
  | connected
  /-- Connected, and a join succeeded. -/
  | joined
  | closed
deriving DecidableEq, Repr

/-- The name of a state. -/
def LinkState.name : LinkState → String
  | .connecting => "Connecting"
  | .connected => "Connected"
  | .joined => "Joined"
  | .closed => "Closed"

/-- Where a link stands with its socket. -/
inductive LinkPhase where
  | dialing
  | live
  /-- Waiting for the next attempt to open the socket. -/
  | waiting
  | stopped
deriving DecidableEq, Repr

/-- What is waited for under a call's number. -/
inductive PendingCall where
  /-- The join that a link makes by itself. -/
  | rejoin
  /-- A join that the device asked for. -/
  | join
  | other
deriving DecidableEq, Repr

/-- A session with the relay. -/
structure Link where
  url : String
  /-- The room and secret to join with. -/
  credentials : String × String
  phase : LinkPhase := .dialing
  state : LinkState := .connecting
  /-- How many attempts have ended since one last succeeded. -/
  attempts : Nat := 0
  pending : Table UInt64 PendingCall := ∅
  nextCall : UInt64 := 1
  /-- Events that the device has not taken yet, oldest first. -/
  events : List Event := []
  /-- Whether the device still takes events. -/
  listening : Bool := true

/-- What happens to the socket of a link, and to time. -/
inductive LinkSignal where
  | opened
  | openFailed
  | received (bytes : Bytes)
  | socketClosed
  /-- The wait for the next attempt is over. -/
  | waited
  /-- The time of a call is up. -/
  | callTimedOut (callId : UInt64)
  /-- The device closes the link. -/
  | close

/-- What a link does. -/
inductive LinkEffect where
  | send (frame : DeviceFrame)
  | finish (callId : UInt64) (result : Except DeviceError Response)
  /-- Wait so many milliseconds before the next attempt. -/
  | wait (delay : Nat)

namespace Link

/-- The number of events that wait for the device. -/
def eventCapacity : Nat := 256

/-- How long a call waits for its completion, in milliseconds. -/
def callWait : Nat := 30000

/-- The wait before the first attempt to open the socket again, in milliseconds. -/
def backoffBase : Nat := 200

/-- The longest wait before an attempt, in milliseconds. -/
def backoffMax : Nat := 30000

/-- The greatest number of attempts that is counted. -/
def maxAttempts : Nat := UInt32.size - 1

/-- The wait before an attempt, which are counted from one. -/
def backoff (attempt : Nat) : Nat :=
  min (backoffBase * Nat.pow 2 (min (attempt - 1) 16)) backoffMax

/-- A link that starts to open its socket. -/
def start (c : DeviceSettings) : Except DeviceError Link :=
  c.socketUrl.map fun url => { url, credentials := c.roomToJoin }

/-! ## Calls -/

/-- Makes a call, if the socket is open: it gets the next number. -/
def callAs (c : Link) (purpose : PendingCall) (request : Request) :
    Except DeviceError DeviceFrame × Link :=
  if c.phase = .live then
    (.ok ⟨c.nextCall, request⟩,
      { c with pending := c.pending.insert c.nextCall purpose, nextCall := c.nextCall + 1 })
  else (.error .notConnected, c)

/-- Makes a call other than a join. -/
def call (c : Link) (request : Request) : Except DeviceError DeviceFrame × Link :=
  c.callAs .other request

/-- Joins a room, and from now on joins it again after each opening. -/
def join (c : Link) (roomId secret : String) : Except DeviceError DeviceFrame × Link :=
  { c with credentials := (roomId, secret) }.callAs .join (.joinRoom roomId secret)

/-- The history in an answer. -/
def historyOf : Response → Except DeviceError HistoryList
  | .history h => .ok h
  | _ => .error (.unexpectedResponse "GetHistory")

/-- The text in an answer. -/
def historyTextOf : Response → Except DeviceError String
  | .historyText t => .ok t.text
  | _ => .error (.unexpectedResponse "GetHistoryText")

/-! ## Frames -/

/-- Keeps an event for the device, unless too many wait already. -/
def deliver (c : Link) (event : Event) : Link :=
  if c.listening && c.events.length < eventCapacity then { c with events := c.events ++ [event] }
  else c

/-- Ends the wait of a call; what nobody waits for is passed over. -/
def complete (c : Link) (callId : UInt64) (outcome : Outcome) :
    List LinkEffect × Link :=
  match c.pending.get? callId with
  | none => ([], c)
  | some purpose =>
    let c := { c with pending := c.pending.erase callId }
    let c := match purpose, outcome with
      | .rejoin, .ok _ | .join, .ok _ => { c with state := .joined }
      | _, _ => c
    match purpose with
    | .rejoin => ([], c)
    | _ => ([.finish callId (outcome.mapError .rpc)], c)

/-- Takes in a binary message.  Bytes that are no frame are passed over. -/
def receive (c : Link) (bytes : Bytes) : List LinkEffect × Link :=
  match Binary.decode .serverFrame bytes with
  | .ok (.completion callId outcome) => c.complete callId outcome
  | .ok (.event event) => ([], c.deliver event)
  | .error _ => ([], c)

/-! ## Opening and closing -/

/-- The calls that end because the socket is gone. -/
def cutOff (c : Link) : List LinkEffect :=
  c.pending.entries.filterMap fun (callId, purpose) =>
    if purpose = .rejoin then none else some (.finish callId (.error .connectionClosed))

/-- Takes the socket as open and joins the room. -/
def opened (c : Link) : List LinkEffect × Link :=
  let c := { c with phase := .live, state := .connected, attempts := 0 }
  match c.callAs .rejoin (.joinRoom c.credentials.1 c.credentials.2) with
  | (.ok frame, c) => ([.send frame], c)
  | (.error _, c) => ([], c)

/-- Waits for the next attempt. -/
def rest (c : Link) : List LinkEffect × Link :=
  let attempts := min (c.attempts + 1) maxAttempts
  ([.wait (backoff attempts)], { c with phase := .waiting, attempts })

/-- Ends the calls that wait. -/
def forgetCalls (c : Link) : List LinkEffect × Link :=
  (c.cutOff, { c with pending := ∅ })

/-- Takes in a signal.  One that does not fit the phase, such as bytes from a
socket that is gone, changes nothing. -/
def step (c : Link) (signal : LinkSignal) : List LinkEffect × Link :=
  match signal, c.phase with
  | .opened, .dialing => c.opened
  | .openFailed, .dialing => c.rest
  | .received bytes, .live => c.receive bytes
  | .socketClosed, .live =>
    let (ended, c) := c.forgetCalls
    let (waits, c) := c.rest
    (ended ++ waits, c)
  | .waited, .waiting => ([], { c with phase := .dialing, state := .connecting })
  | .callTimedOut callId, _ =>
    match c.pending.get? callId with
    | some .rejoin => ([], { c with pending := c.pending.erase callId })
    | some _ => ([.finish callId (.error .timeout)], { c with pending := c.pending.erase callId })
    | none => ([], c)
  | .close, _ =>
    let (ended, c) := c.forgetCalls
    (ended, { c with phase := .stopped, state := .closed })
  | _, _ => ([], c)

/-- Takes the events that wait. -/
def takeEvents (c : Link) : List Event × Link := (c.events, { c with events := [] })

end Link

end ClipRelay
