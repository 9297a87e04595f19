import ClipRelay.Device.Link

/-!
# ClipRelay.Device.LinkRun

A link taking one action after another.

Signals come from its socket and from the clock, and the device makes calls, joins
rooms and takes events.  `Link.act` takes one such action and says what the link does
on it, sending the frame of a call included; `Link.takeAll` takes any number of them, and
`Link.run` is the link that they leave.
-/

namespace ClipRelay

/-- What can happen to a link. -/
inductive LinkAction where
  | signal (signal : LinkSignal)
  /-- The device makes a call other than a join of its own, whatever it asks for. -/
  | call (request : Request)
  /-- The device joins a room. -/
  | join (roomId secret : String)
  /-- The device takes the events that wait. -/
  | takeEvents
  /-- The device will take no more events. -/
  | stopListening

namespace Link

/-- What comes of making a call: its frame is sent, unless the call has failed already. -/
def sending : Except DeviceError DeviceFrame × Link → List LinkEffect × Link
  | (.ok frame, c) => ([.send frame], c)
  | (.error _, c) => ([], c)

/-- Takes one action. -/
def act (c : Link) : LinkAction → List LinkEffect × Link
  | .signal signal => c.step signal
  | .call request => sending (c.call request)
  | .join roomId secret => sending (c.join roomId secret)
  | .takeEvents => ([], c.takeEvents.2)
  | .stopListening => ([], { c with listening := false })

/-- Takes one action after another: what the link does on them, and the link after them. -/
def takeAll (c : Link) : List LinkAction → List LinkEffect × Link
  | [] => ([], c)
  | a :: as =>
    let (effects, c) := c.act a
    let (more, c) := c.takeAll as
    (effects ++ more, c)

/-- The link after some actions. -/
def run (c : Link) (actions : List LinkAction) : Link := (c.takeAll actions).2

/-- How a call ended, if it did so among some effects. -/
def endOf? (callId : UInt64) (effects : List LinkEffect) : Option (Except DeviceError Response) :=
  effects.findSome? fun
    | .finish callId' result => if callId' = callId then some result else none
    | _ => none

/-- A link that starts has been through nothing yet. -/
theorem eq_of_start {settings : DeviceSettings} {c : Link} (h : start settings = .ok c) :
    ∃ url, c = { url, credentials := settings.roomToJoin } := by
  unfold start at h
  cases hurl : settings.socketUrl with
  | error e =>
      rw [hurl] at h
      cases h
  | ok url =>
      rw [hurl] at h
      exact ⟨url, (Except.ok.inj h).symm⟩

theorem sending_callAs_of_live {c : Link} (h : c.phase = .live) (purpose : PendingCall)
    (request : Request) :
    sending (c.callAs purpose request) = ([.send ⟨c.nextCall, request⟩],
      { c with pending := c.pending.insert c.nextCall purpose, nextCall := c.nextCall + 1 }) := by
  rw [callAs, if_pos h, sending]

theorem sending_callAs_of_not_live {c : Link} (h : c.phase ≠ .live) (purpose : PendingCall)
    (request : Request) : sending (c.callAs purpose request) = ([], c) := by
  rw [callAs, if_neg h, sending]

/-- A link that is opened sends the join of its room. -/
theorem opened_eq (c : Link) :
    c.opened = sending
      ({ c with phase := .live, state := .connected, attempts := 0 }.callAs .rejoin
        (.joinRoom c.credentials.1 c.credentials.2)) := by
  rw [opened, callAs, if_pos rfl]
  rfl

/-- A completion that is waited for ends the wait, and an accepted join is noted. -/
theorem complete_of_waiting {c : Link} {callId : UInt64} {purpose : PendingCall}
    (h : c.pending.get? callId = some purpose) (outcome : Outcome) :
    (c.complete callId outcome).2 =
      { c with
        pending := c.pending.erase callId
        state := if purpose ≠ .other ∧ outcome.isOk then .joined else c.state } := by
  simp only [complete, h]
  cases purpose <;> cases outcome <;> rfl

theorem complete_of_unknown {c : Link} {callId : UInt64} (h : c.pending.get? callId = none)
    (outcome : Outcome) : c.complete callId outcome = ([], c) := by
  simp only [complete, h]

/-- A call whose time is up waits no longer. -/
theorem step_callTimedOut (c : Link) (callId : UInt64) :
    (c.step (.callTimedOut callId)).2 = { c with pending := c.pending.erase callId } := by
  cases hpending : c.pending.get? callId with
  | none => simp only [step, hpending, Table.erase_of_get?_eq_none hpending]
  | some purpose => cases purpose <;> simp only [step, hpending]

end Link

end ClipRelay
