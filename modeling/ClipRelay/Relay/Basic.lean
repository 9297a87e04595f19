import ClipRelay.Account.BearerToken
import ClipRelay.Relay.History
import ClipRelay.Relay.Membership
import ClipRelay.Relay.Refusal
import ClipRelay.Relay.RoomSecrets

/-!
# ClipRelay.Relay.Basic

The state of the relay: its sessions, what it keeps of each room, and what is
on its way to the sessions.

A session is made when a connection opens.  It is bound to one room at most, by
the first join that succeeds, and keeps that binding to its end.  Everything of
a room is kept under its key; `Relay.room` gathers it into one value, so that
what an operation does to a room, and leaves alone in all others, can be said
of that value.  `Relay.kept` is the part of it that does not depend on who is
there.
-/

namespace ClipRelay

/-- The room that a session is bound to. -/
structure Binding where
  /-- The room id as the client sent it. -/
  roomId : String
  key : RoomKey
deriving DecidableEq

/-- One connection to the relay. -/
structure Session where
  principal : Option Principal
  outbound : QueueId
  binding : Option Binding := none
  closed : Bool := false
deriving DecidableEq

/-- The relay. -/
structure Relay where
  account : AccountSettings
  secrets : RoomSecrets := {}
  texts : Table RoomKey TextChange := ∅
  pointers : Table RoomKey Pointer := ∅
  histories : Histories
  files : Payloads := {}
  groups : Membership := {}
  sessions : Table SessionId Session := ∅
  queues : Queues := ∅
  /-- The name of the next session and of its queue. -/
  nextSession : SessionId := 0

namespace Relay

/-- How many items a room keeps, unless set otherwise. -/
def defaultHistoryCapacity : Nat := 10

/-- How many frames wait for a session, unless set otherwise. -/
def defaultQueueCapacity : Nat := 256

/-- A relay without any sessions or rooms. -/
def empty (account : AccountSettings) (historyCapacity : Nat) : Relay where
  account
  histories := .ofCapacity historyCapacity

/-! ## What is kept of one room -/

/-- Everything that the stores keep under one key. -/
@[ext] structure Kept where
  secret : Option Bytes
  text : Option TextChange
  pointer : Option Pointer
  items : List HistoryItem
  itemTexts : String → Option String
  files : String → Option Bytes

/-- A room: what is kept of it, and who is in it. -/
structure Room extends Kept where
  /-- The members, each with the queue it listens on. -/
  members : SessionId → Option Queue

theorem Room.ext {room room' : Room} (hkept : room.toKept = room'.toKept)
    (hmembers : ∀ id, room.members id = room'.members id) : room = room' := by
  cases room
  cases room'
  rw [Room.mk.injEq]
  exact ⟨hkept, funext hmembers⟩

/-- What the stores keep of a room. -/
def kept (r : Relay) (key : RoomKey) : Kept where
  secret := r.secrets.hashes.get? key.text
  text := r.texts.get? key
  pointer := r.pointers.get? key
  items := (r.histories.room key).items
  itemTexts := (r.histories.room key).texts.get?
  files := r.files.get? key

/-- A room of the relay. -/
def room (r : Relay) (key : RoomKey) : Room where
  toKept := r.kept key
  members id := ((r.groups.group key).get? id).bind r.queues.get?

/-! ## Sessions -/

/-- Opens a session with a queue of a given capacity. -/
def connect (r : Relay) (principal : Option Principal) (capacity : Nat) : SessionId × Relay :=
  let id := r.nextSession
  (id, { r with
    sessions := r.sessions.insert id ⟨principal, id, none, false⟩
    queues := r.queues.insert id { capacity }
    nextSession := id + 1 })

/-- Queues a frame for one session; it waits until there is room. -/
def send (r : Relay) (session : Session) (frame : RelayFrame) : Relay :=
  { r with queues := r.queues.modify session.outbound (Queue.send frame) }

/-- Queues an event for one session; it waits until there is room. -/
def push (r : Relay) (session : Session) (event : Event) : Relay := r.send session (.event event)

/-- Offers an event to the members of a room. -/
def broadcast (r : Relay) (key : RoomKey) (event : Event) : Relay :=
  { r with queues := (r.groups.broadcast key event r.queues).1 }

/-- The queue that a session listens on. -/
def queueOf (r : Relay) (id : SessionId) : Option Queue :=
  (r.sessions.get? id).bind fun s => r.queues.get? s.outbound

/-- The frames that wait for a session. -/
def waiting (r : Relay) (id : SessionId) : List RelayFrame :=
  ((r.queueOf id).map (·.frames)).getD []

/-- Takes so many of the frames that wait for a session off its queue. -/
def read (r : Relay) (id : SessionId) (count : Nat) : List RelayFrame × Relay :=
  ((r.waiting id).take count,
    match r.sessions.get? id with
    | none => r
    | some s => { r with queues := r.queues.modify s.outbound (Queue.dropFront count) })

/-- Takes all frames that wait for a session off its queue. -/
def drain (r : Relay) (id : SessionId) : List RelayFrame × Relay :=
  r.read id (r.waiting id).length

/-- Notes that nobody receives what a session is sent any more. -/
def dropQueue (r : Relay) (id : SessionId) : Relay :=
  match r.sessions.get? id with
  | none => r
  | some s => { r with queues := r.queues.modify s.outbound Queue.closed }

/-- Ends a session: it leaves its room. -/
def disconnect (r : Relay) (id : SessionId) : Relay :=
  match r.sessions.get? id with
  | none => r
  | some s =>
    { r with
      sessions := r.sessions.insert id { s with closed := true }
      groups := match s.binding with
        | some b => r.groups.leave b.key id
        | none => r.groups }

end Relay

end ClipRelay
