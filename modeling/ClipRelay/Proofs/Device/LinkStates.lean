import ClipRelay.Device.LinkRun
import Mathlib.Tactic.ByContra

/-!
# ClipRelay.Proofs.Device.LinkStates

What a link reports about itself, against what it went through.

A `LinkWatch` follows a link from outside: it knows which attempts to open a socket have
succeeded, which calls were sent on the socket and still wait, and how the joins among
them ended.  What a link reports is a function of that (`LinkWatch.state`), since each
action keeps the two in step (`Agrees.act`).  It is not always the truth: nothing resets
the state when a socket is gone, or when a later join is refused.
-/

namespace ClipRelay

/-- Whether a call asks to join a room. -/
def Request.isJoin : Request → Bool
  | .joinRoom .. => true
  | _ => false

/-- A join that was completed. -/
structure JoinAnswer where
  /-- Who had asked for it. -/
  purpose : PendingCall
  outcome : Outcome

namespace JoinAnswer

/-- Whether the relay let the device in. -/
def accepted (a : JoinAnswer) : Bool := a.outcome.isOk

/-- Whether it was the link's own join, or one that the device asked for as a join. -/
def named (a : JoinAnswer) : Bool := a.purpose ≠ .other

end JoinAnswer

/-- What someone knows who watches a link. -/
structure LinkWatch where
  /-- Whether the device has closed the link. -/
  closed : Bool := false
  /-- Whether the last attempt to open a socket has succeeded. -/
  reached : Bool := false
  /-- The calls that were sent on the socket and wait, by number: for what, and asking what. -/
  waiting : Table UInt64 (PendingCall × Request) := ∅
  /-- The joins that were completed on the last socket that opened, newest first. -/
  joins : List JoinAnswer := []

namespace LinkWatch

/-- Notes the call that was sent, if one was. -/
def sent (w : LinkWatch) (purpose : PendingCall) : List LinkEffect → LinkWatch
  | [.send frame] =>
    { w with waiting := w.waiting.insert frame.callId (purpose, frame.request) }
  | _ => w

/-- Notes that a call has been completed. -/
def completed (w : LinkWatch) (callId : UInt64) (outcome : Outcome) : LinkWatch :=
  match w.waiting.get? callId with
  | none => w
  | some (purpose, request) =>
    { w with
      waiting := w.waiting.erase callId
      joins := if request.isJoin then ⟨purpose, outcome⟩ :: w.joins else w.joins }

/-- Notes what a link does on an action, in the phase that the link is in before. -/
def see (w : LinkWatch) (phase : LinkPhase) (a : LinkAction) (effects : List LinkEffect) :
    LinkWatch :=
  match a, phase with
  | .signal .opened, .dialing => { w with reached := true, joins := [] }.sent .rejoin effects
  | .signal (.received bytes), .live =>
    match Binary.decode .serverFrame bytes with
    | .ok (.completion callId outcome) => w.completed callId outcome
    | _ => w
  | .signal .socketClosed, .live => { w with waiting := ∅ }
  | .signal .waited, .waiting => { w with reached := false }
  | .signal (.callTimedOut callId), _ => { w with waiting := w.waiting.erase callId }
  | .signal .close, _ => { w with closed := true, waiting := ∅ }
  | .call _, _ => w.sent .other effects
  | .join .., _ => w.sent .join effects
  | _, _ => w

/-- What is known of a link after some actions. -/
def after (w : LinkWatch) (c : Link) : List LinkAction → LinkWatch
  | [] => w
  | a :: as => (w.see c.phase a (c.act a).1).after (c.act a).2 as

/-- What a link reports of which this is known. -/
def state (w : LinkWatch) : LinkState :=
  if w.closed then .closed
  else if !w.reached then .connecting
  else if w.joins.any fun a => a.named && a.accepted then .joined
  else .connected

/-- A link reports the truth: `connected` or `joined` only while its socket is open,
`joined` only if the last join that was completed on that socket was accepted, and
`closed` once it has been closed. -/
structure Truthful (w : LinkWatch) (c : Link) : Prop where
  live : c.state = .connected ∨ c.state = .joined → c.phase = .live
  joined : c.state = .joined → ∃ a, w.joins.head? = some a ∧ a.accepted
  closed : w.closed → c.state = .closed

/-! ## What is known agrees with the link -/

/-- What is known of a link is so. -/
structure Agrees (w : LinkWatch) (c : Link) : Prop where
  pending : ∀ callId, c.pending.get? callId = (w.waiting.get? callId).map Prod.fst
  isJoin : ∀ callId purpose request, w.waiting.get? callId = some (purpose, request) →
    purpose ≠ .other → request.isJoin
  closed : w.closed ↔ c.phase = .stopped
  live : c.phase = .live → w.reached
  dialing : c.phase = .dialing → w.reached = false
  state : c.state = w.state

variable {w : LinkWatch} {c : Link}

theorem Agrees.start {settings : DeviceSettings} (h : Link.start settings = .ok c) :
    Agrees {} c := by
  obtain ⟨url, rfl⟩ := Link.eq_of_start h
  refine ⟨fun _ => rfl, fun callId purpose request hwaits => ?_, by simp, by simp,
    fun _ => rfl, rfl⟩
  cases hwaits

/-- Just the phase, the state and the calls that wait count. -/
theorem Agrees.congr (h : w.Agrees c) {c' : Link} (hphase : c'.phase = c.phase)
    (hstate : c'.state = c.state) (hpending : c'.pending = c.pending) : w.Agrees c' where
  pending := by rw [hpending]; exact h.pending
  isJoin := h.isJoin
  closed := by rw [hphase]; exact h.closed
  live := by rw [hphase]; exact h.live
  dialing := by rw [hphase]; exact h.dialing
  state := by rw [hstate]; exact h.state

theorem Agrees.not_closed (h : w.Agrees c) (hphase : c.phase ≠ .stopped) : w.closed = false :=
  Bool.eq_false_iff.mpr fun hclosed => hphase (h.closed.mp hclosed)

/-- A call that is made waits, whatever it asks for. -/
theorem Agrees.sent (h : w.Agrees c) {purpose : PendingCall} {request : Request}
    (hjoin : purpose ≠ .other → request.isJoin) :
    (w.sent purpose (Link.sending (c.callAs purpose request)).1).Agrees
      (Link.sending (c.callAs purpose request)).2 := by
  by_cases hlive : c.phase = .live
  · rw [Link.sending_callAs_of_live hlive, LinkWatch.sent]
    refine ⟨fun callId => ?_, fun callId purpose' request' hwaits => ?_, h.closed, h.live,
      h.dialing, h.state⟩
    · by_cases hid : c.nextCall = callId
      · simp only [Table.get?_insert, if_pos hid, Option.map_some]
      · simp only [Table.get?_insert, if_neg hid, h.pending]
    · rw [Table.get?_insert] at hwaits
      by_cases hid : c.nextCall = callId
      · rw [if_pos hid] at hwaits
        cases hwaits
        exact hjoin
      · rw [if_neg hid] at hwaits
        exact h.isJoin callId purpose' request' hwaits
  · rw [Link.sending_callAs_of_not_live hlive, LinkWatch.sent]
    exact h
    · intro frame hframe
      cases hframe

/-- A socket that opens is joined on at once. -/
theorem Agrees.opened (h : w.Agrees c) (hphase : c.phase = .dialing) :
    (LinkWatch.sent { w with reached := true, joins := [] } .rejoin c.opened.1).Agrees
      c.opened.2 := by
  have hclosed : w.closed = false := h.not_closed (by rw [hphase]; decide)
  have hlive : Agrees { w with reached := true, joins := [] }
      { c with phase := .live, state := .connected, attempts := 0 } := by
    refine ⟨h.pending, h.isJoin, ?_, fun _ => rfl, ?_, ?_⟩
    · simp [hclosed]
    · simp
    · simp [LinkWatch.state, hclosed]
  rw [Link.opened_eq]
  exact hlive.sent fun _ => rfl

/-- A call whose time is up waits no longer. -/
theorem Agrees.timedOut (h : w.Agrees c) (callId : UInt64) :
    { w with waiting := w.waiting.erase callId }.Agrees
      { c with pending := c.pending.erase callId } := by
  refine ⟨fun callId' => ?_, fun callId' purpose request hwaits => ?_, h.closed, h.live,
    h.dialing, h.state⟩
  · by_cases hid : callId = callId'
    · simp only [Table.get?_erase, if_pos hid, Option.map_none]
    · simp only [Table.get?_erase, if_neg hid, h.pending]
  · rw [Table.get?_erase] at hwaits
    by_cases hid : callId = callId'
    · rw [if_pos hid] at hwaits
      cases hwaits
    · rw [if_neg hid] at hwaits
      exact h.isJoin callId' purpose request hwaits

/-- A completion ends the call that waits for it. -/
theorem Agrees.completed (h : w.Agrees c) (hphase : c.phase = .live) (callId : UInt64)
    (outcome : Outcome) : (w.completed callId outcome).Agrees (c.complete callId outcome).2 := by
  have hclosed : w.closed = false := h.not_closed (by rw [hphase]; decide)
  have hreached : w.reached := h.live hphase
  cases hwaits : w.waiting.get? callId with
  | none =>
      have hunknown : c.pending.get? callId = none := by rw [h.pending, hwaits, Option.map_none]
      rw [Link.complete_of_unknown hunknown, LinkWatch.completed, hwaits]
      exact h
  | some call =>
      obtain ⟨purpose, request⟩ := call
      have hpending : c.pending.get? callId = some purpose := by
        rw [h.pending, hwaits, Option.map_some]
      rw [Link.complete_of_waiting hpending, LinkWatch.completed, hwaits]
      have herased := h.timedOut callId
      refine ⟨herased.pending, herased.isJoin, h.closed, h.live, h.dialing, ?_⟩
      simp only [h.state, LinkWatch.state, hclosed, hreached]
      by_cases hother : purpose = .other
      · by_cases hjoin : request.isJoin <;>
          simp [hjoin, hother, JoinAnswer.named]
      · have hjoin := h.isJoin callId purpose request hwaits hother
        by_cases haccepted : outcome.isOk <;>
          simp [hjoin, hother, haccepted, JoinAnswer.named, JoinAnswer.accepted]

/-- The calls that wait are forgotten with their socket. -/
theorem Agrees.forgetCalls (h : w.Agrees c) :
    { w with waiting := ∅ }.Agrees c.forgetCalls.2 := by
  refine ⟨fun _ => rfl, fun callId purpose request hwaits => ?_, h.closed, h.live, h.dialing,
    h.state⟩
  cases hwaits

/-- After a socket is gone, its calls are over and the next attempt is waited for. -/
theorem Agrees.rest (h : w.Agrees c) (hphase : c.phase ≠ .stopped) : w.Agrees c.rest.2 := by
  have hclosed : w.closed = false := h.not_closed hphase
  refine ⟨h.pending, h.isJoin, ?_, ?_, ?_, h.state⟩
  · simp [Link.rest, hclosed]
  · simp [Link.rest]
  · simp [Link.rest]

theorem Agrees.deliver (h : w.Agrees c) (event : Event) : w.Agrees (c.deliver event) := by
  unfold Link.deliver
  split
  · exact h.congr rfl rfl rfl
  · exact h

/-- What is known of a link stays so with whatever comes from its socket and the clock. -/
theorem Agrees.step (h : w.Agrees c) (signal : LinkSignal) :
    (w.see c.phase (.signal signal) (c.step signal).1).Agrees (c.step signal).2 := by
  cases signal with
  | opened =>
      cases hphase : c.phase with
      | dialing => simpa only [Link.step, hphase, see] using h.opened hphase
      | _ => simpa only [Link.step, hphase, see] using h
  | openFailed =>
      cases hphase : c.phase with
      | dialing =>
          have hopen : c.phase ≠ .stopped := by rw [hphase]; decide
          simpa only [Link.step, hphase, see] using h.rest hopen
      | _ => simpa only [Link.step, hphase, see] using h
  | received bytes =>
      cases hphase : c.phase with
      | live =>
          simp only [Link.step, hphase, see, Link.receive]
          cases Binary.decode .serverFrame bytes with
          | error e => exact h
          | ok frame =>
              cases frame with
              | completion callId outcome => exact h.completed hphase callId outcome
              | event event => exact h.deliver event
      | _ => simpa only [Link.step, hphase, see] using h
  | socketClosed =>
      cases hphase : c.phase with
      | live =>
          have hgone : c.forgetCalls.2.phase ≠ .stopped := by simp [Link.forgetCalls, hphase]
          simpa only [Link.step, hphase, see] using h.forgetCalls.rest hgone
      | _ => simpa only [Link.step, hphase, see] using h
  | waited =>
      cases hphase : c.phase with
      | waiting =>
          have hclosed : w.closed = false := h.not_closed (by rw [hphase]; decide)
          simp only [Link.step, hphase, see]
          refine ⟨h.pending, h.isJoin, ?_, ?_, fun _ => rfl, ?_⟩
          · simp [hclosed]
          · simp
          · simp [LinkWatch.state, hclosed]
      | _ => simpa only [Link.step, hphase, see] using h
  | callTimedOut callId =>
      rw [Link.step_callTimedOut]
      simpa only [see] using h.timedOut callId
  | close =>
      have hended := h.forgetCalls
      simp only [Link.step, see]
      refine ⟨hended.pending, hended.isJoin, ?_, ?_, ?_, rfl⟩
      · simp
      · simp
      · simp

theorem Agrees.act (h : w.Agrees c) (a : LinkAction) :
    (w.see c.phase a (c.act a).1).Agrees (c.act a).2 := by
  cases a with
  | signal signal => exact h.step signal
  | call request => exact h.sent fun hother => absurd rfl hother
  | join roomId secret =>
      have hnew : w.Agrees { c with credentials := (roomId, secret) } := h.congr rfl rfl rfl
      exact hnew.sent fun _ => rfl
  | takeEvents => exact h.congr rfl rfl rfl
  | stopListening => exact h.congr rfl rfl rfl

theorem Agrees.after (h : w.Agrees c) (actions : List LinkAction) :
    (w.after c actions).Agrees (c.run actions) := by
  induction actions generalizing w c with
  | nil => exact h
  | cons a actions ih => exact ih (h.act a)

/-! ## When the truth is told -/

theorem state_eq_closed_iff : w.state = .closed ↔ w.closed := by
  unfold state
  cases w.closed <;> cases w.reached <;> grind

theorem state_open_iff :
    w.state = .connected ∨ w.state = .joined ↔ w.closed = false ∧ w.reached := by
  unfold state
  cases w.closed <;> cases w.reached <;> grind

theorem state_eq_joined_iff :
    w.state = .joined ↔
      w.closed = false ∧ w.reached ∧ ∃ a ∈ w.joins, a.named ∧ a.accepted := by
  unfold state
  cases w.closed <;> cases w.reached <;> simp

/-- A link does not tell the truth just while it waits to open its socket again after one
was open, and while the last join on its socket was refused after it had been let in. -/
theorem Agrees.not_truthful_iff (h : w.Agrees c) :
    ¬w.Truthful c ↔ w.closed = false ∧ w.reached ∧
      (c.phase = .waiting ∨
        (∃ a ∈ w.joins, a.named ∧ a.accepted) ∧
          ∃ a, w.joins.head? = some a ∧ a.accepted = false) := by
  constructor
  · intro hnot
    by_contra hother
    refine hnot ⟨fun hopen => ?_, fun hjoined => ?_, fun hclosed => ?_⟩
    · rw [h.state, state_open_iff] at hopen
      obtain ⟨hclosed, hreached⟩ := hopen
      cases hphase : c.phase with
      | live => rfl
      | waiting => exact absurd ⟨hclosed, hreached, .inl hphase⟩ hother
      | dialing => exact absurd hreached (by simp [h.dialing hphase])
      | stopped => exact absurd (h.closed.mpr hphase) (by simp [hclosed])
    · rw [h.state, state_eq_joined_iff] at hjoined
      obtain ⟨hclosed, hreached, a, ha, hin⟩ := hjoined
      obtain ⟨last, hlast⟩ := Option.isSome_iff_exists.mp
        (List.isSome_head?.mpr (List.ne_nil_of_mem ha))
      cases haccepted : last.accepted with
      | true => exact ⟨last, hlast, haccepted⟩
      | false =>
          exact absurd ⟨hclosed, hreached, .inr ⟨⟨a, ha, hin⟩, last, hlast, haccepted⟩⟩ hother
    · rw [h.state]
      exact state_eq_closed_iff.mpr hclosed
  · rintro ⟨hclosed, hreached, hwaiting | ⟨hin, last, hlast, hrefused⟩⟩ htruthful
    · have hopen := state_open_iff.mpr ⟨hclosed, hreached⟩
      rw [← h.state] at hopen
      rw [htruthful.live hopen] at hwaiting
      cases hwaiting
    · have hjoined := state_eq_joined_iff.mpr ⟨hclosed, hreached, hin⟩
      rw [← h.state] at hjoined
      obtain ⟨a, ha, haccepted⟩ := htruthful.joined hjoined
      rw [hlast, Option.some.injEq] at ha
      rw [ha, haccepted] at hrefused
      cases hrefused

end LinkWatch

/-- **The state of a link**: whatever happens to a link and whatever its device does, what
the link reports follows from whether it was closed, whether its last attempt to open a
socket succeeded, and how the joins on that socket ended.  So it reports `closed` once it
has been closed.  It reports the truth but for two cases: after a socket that was open is
gone, until the next attempt begins; and after a join was refused on a socket on which
the link had been let in before. -/
theorem Link.state_run {settings : DeviceSettings} {start : Link}
    (h : Link.start settings = .ok start) (actions : List LinkAction) :
    let c := start.run actions
    let w := LinkWatch.after {} start actions
    c.state = w.state ∧
    (w.closed → c.state = .closed) ∧
    (¬w.Truthful c ↔ w.closed = false ∧ w.reached ∧
      (c.phase = .waiting ∨
        (∃ a ∈ w.joins, a.named ∧ a.accepted) ∧
          ∃ a, w.joins.head? = some a ∧ a.accepted = false)) := by
  intro c w
  have hagrees : w.Agrees c := (LinkWatch.Agrees.start h).after actions
  refine ⟨hagrees.state, fun hclosed => ?_, hagrees.not_truthful_iff⟩
  rw [hagrees.state]
  exact LinkWatch.state_eq_closed_iff.mpr hclosed

/-- A device that joins a room with a secret. -/
def homeDevice : DeviceSettings where
  roomId := "home"
  roomSecret := "sesame"
  deviceId := { octets := List.replicate 16 5 }

/-- The link of the device when it starts. -/
def homeLink : Link where
  url := "ws://localhost:8080/hub/clipboard"
  credentials := ("home", "sesame")

/-- The bytes of a completion. -/
def completionBytes (callId : UInt64) (outcome : Outcome) : Bytes :=
  Binary.encode .serverFrame (.completion callId outcome)

/-- A link that has been let in, and then loses its socket, goes on to report it. -/
theorem Link.state_run_home :
    Link.start homeDevice = .ok homeLink ∧
      (homeLink.run [.signal .opened, .signal (.received (completionBytes 1 (.ok .joined))),
        .signal .socketClosed]).state = .joined := by
  have hstart : Link.start homeDevice = .ok homeLink := rfl
  refine ⟨hstart, ?_⟩
  rw [(Link.state_run hstart _).1]
  rfl

/-- A link that was let in reports it after it was refused elsewhere. -/
theorem Link.joined_after_refusal :
    let actions : List LinkAction := [.signal .opened,
      .signal (.received (completionBytes 1 (.ok .joined))), .join "work" "mine",
      .signal (.received (completionBytes 2
        (.error ⟨.invalidCredential, "invalid room id or secret"⟩)))]
    ∃ start, Link.start homeDevice = .ok start ∧
      ¬(LinkWatch.after {} start actions).Truthful (start.run actions) := by
  intro actions
  refine ⟨homeLink, rfl, fun htruthful => ?_⟩
  obtain ⟨a, ha, haccepted⟩ := htruthful.joined rfl
  have hlast : (LinkWatch.after {} homeLink actions).joins.head? =
      some ⟨.join, .error ⟨.invalidCredential, "invalid room id or secret"⟩⟩ := rfl
  rw [hlast, Option.some.injEq] at ha
  rw [← ha] at haccepted
  cases haccepted

end ClipRelay
