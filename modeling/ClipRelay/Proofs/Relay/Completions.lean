import ClipRelay.Proofs.Relay.Deliveries
import ClipRelay.Relay.Socket

/-!
# ClipRelay.Proofs.Relay.Completions

Calls that come in through a socket, and their completions.

Every binary message that is a call is answered by one completion, under the number that
the client gave it; nothing else is.  `Relay.answers` lists what a session is owed that way
over a run, and `Listens.flow_serve` says that this is what it receives, or has waiting.
A completion stands behind all events that its call brought to the same session
(`Listens.waiting_receive_call`).

A session that `Listens` is open, and what it is sent is received.  It stays so through
all messages within the limits, whatever they hold (`Listens.serve`).
-/

namespace ClipRelay

/-- The call that a message makes: the one in its bytes, if they are binary. -/
def SocketMessage.call? : SocketMessage → Option DeviceFrame
  | .binary bytes => (Binary.decode .clientFrame bytes).toOption
  | _ => none

namespace Relay

/-- A session is open, and somebody receives what it is sent. -/
structure Listens (r : Relay) (id : SessionId) : Prop where
  session : ∃ s, r.sessions.get? id = some s ∧ s.closed = false
  queue : ∃ q, r.queueOf id = some q ∧ q.receiving

/-- An action does not end a session. -/
def Action.Spares (id : SessionId) : Action → Prop
  | .dropQueue id' => id' ≠ id
  | .disconnect id' => id' ≠ id
  | _ => True

/-- A turn does not end a session: its client sends no longer message than the relay takes,
and does not close the socket. -/
def Turn.Spares (maxMessage : Nat) (id : SessionId) : Turn → Prop
  | .message _ id' m => id' = id → messageSize m ≤ min maxMessage maxFrameBytes ∧ m ≠ .close
  | .act a => a.Spares id

/-- The completion that a message of a session is owed, if it is a call: its number, and
what the call is answered. -/
def answerTo (r : Relay) (id : SessionId) : Turn → List (UInt64 × Outcome)
  | .message now id' message =>
    if id' = id then
      (message.call?.map fun frame =>
        (frame.callId, (r.perform now id frame.request).1.mapError Refusal.toCallError)).toList
    else []
  | .act _ => []

/-- The completions that the messages of a session are owed over a run, in order. -/
def answers (r : Relay) (maxMessage : Nat) (id : SessionId) : List Turn → List (UInt64 × Outcome)
  | [] => []
  | t :: ts => r.answerTo id t ++ answers (r.turn maxMessage t) maxMessage id ts

section
variable {r : Relay} {id : SessionId}

/-- A call that comes in is made, and its completion is queued. -/
theorem invoke_eq (r : Relay) (now : Timestamp) (id : SessionId) (frame : DeviceFrame) :
    r.invoke now id frame = (r.perform now id frame.request).2.touch id (Queue.send
      (.completion frame.callId
        ((r.perform now id frame.request).1.mapError Refusal.toCallError))) := by
  cases hs : (r.perform now id frame.request).2.sessions.get? id with
  | none => simp only [invoke, touch, hs]
  | some s => simp only [invoke, touch, send, hs]

/-- Whatever is no call, within the limits, is passed over. -/
theorem receive_of_no_call {maxMessage : Nat} {message : SocketMessage}
    (hsize : messageSize message ≤ min maxMessage maxFrameBytes) (hopen : message ≠ .close)
    (hnone : message.call? = none) (now : Timestamp) :
    r.receive maxMessage now id message = r := by
  unfold receive
  rw [if_neg (Nat.not_lt.mpr hsize)]
  cases message with
  | close => exact absurd rfl hopen
  | text text => rfl
  | ping => rfl
  | binary bytes =>
      cases hdecode : Binary.decode .clientFrame bytes with
      | error e => simp only [hdecode]
      | ok frame => simp [SocketMessage.call?, hdecode, Except.toOption] at hnone

theorem receive_of_call {maxMessage : Nat} {message : SocketMessage}
    {frame : DeviceFrame} (hsize : messageSize message ≤ min maxMessage maxFrameBytes)
    (hcall : message.call? = some frame) (now : Timestamp) :
    r.receive maxMessage now id message = r.invoke now id frame := by
  unfold receive
  rw [if_neg (Nat.not_lt.mpr hsize)]
  cases message with
  | binary bytes => simp only [eq_ok_of_toOption hcall]
  | _ => cases hcall

/-- A message is a call, or passed over, or ends its session. -/
theorem receive_cases (r : Relay) (maxMessage : Nat) (now : Timestamp) (id : SessionId)
    (message : SocketMessage) {motive : Relay → Prop} (passed : motive r)
    (ended : motive ((r.disconnect id).dropQueue id))
    (call : ∀ frame, motive (r.invoke now id frame)) :
    motive (r.receive maxMessage now id message) := by
  unfold receive
  split
  · exact ended
  · cases message with
    | close => exact ended
    | text text => exact passed
    | ping => exact passed
    | binary bytes =>
        cases hdecode : Binary.decode .clientFrame bytes with
        | error e => simpa only [hdecode] using passed
        | ok frame => simpa only [hdecode] using call frame

/-! ## Soundness -/

theorem sameCast_touch (r : Relay) (id : SessionId) (f : Queue → Queue) :
    r.SameCast (r.touch id f) := by
  unfold touch
  cases r.sessions.get? id with
  | none => exact .refl r
  | some s => exact ⟨⟨rfl, rfl, rfl⟩, rfl, rfl, rfl⟩

theorem Sound.invoke (h : r.Sound) (now : Timestamp) (id : SessionId) (frame : DeviceFrame) :
    (r.invoke now id frame).Sound := by
  rw [invoke_eq]
  exact (h.perform now id frame.request).of_sameCast (sameCast_touch _ id _)

theorem Sound.turn (h : r.Sound) (maxMessage : Nat) (t : Turn) : (r.turn maxMessage t).Sound := by
  cases t with
  | act a => exact h.step a
  | message now id message =>
      refine receive_cases r maxMessage now id message (motive := Sound) h ?_ (h.invoke now id)
      exact (h.disconnect id).of_sameCast (sameCast_dropQueue _ id)

theorem Sound.serve (h : r.Sound) (maxMessage : Nat) (turns : List Turn) :
    (r.serve maxMessage turns).Sound := by
  induction turns generalizing r with
  | nil => exact h
  | cons t turns ih => exact ih (h.turn maxMessage t)

/-! ## What a call queues -/

/-- What greets a session are events. -/
theorem exists_greeting_effect (account : AccountSettings) (capacity maxSize : Nat) (b : Binding)
    (now : Timestamp) (request : Request) (s : Session) (k : Kept) :
    ∃ events : List Event, (effect account capacity maxSize b now request s k).greeting =
      events.map RelayFrame.event := by
  have hnone : ∃ events : List Event, [] = events.map RelayFrame.event := ⟨[], rfl⟩
  have hgreeting (s : Session) (k : Kept) :
      ∃ events : List Event, greetingFor s k = events.map RelayFrame.event := by
    refine ⟨if s.closed then [] else
      (k.pointer.map Event.pointerChanged).toList ++ (k.text.map Event.textChanged).toList, ?_⟩
    rw [greetingFor, Kept.greeting]
    cases s.closed <;> cases k.pointer <;> cases k.text <;> rfl
  cases request with
  | joinRoom roomId secret =>
      simp only [effect, joinEffect]
      repeat' split
      all_goals first | exact hgreeting _ _ | exact hnone
  | _ =>
      rw [(effect_of_call fun _ _ heq => by cases heq).2.1]
      exact hnone

/-- A call queues events only, behind what waits, and nobody stops receiving with it. -/
theorem Sound.queueOf_perform (h : r.Sound) (now : Timestamp) (id : SessionId)
    (request : Request) {id' : SessionId} {q : Queue} (hq : r.queueOf id' = some q) :
    ∃ events : List Event, (r.perform now id request).2.queueOf id' =
      some { q with frames := q.frames ++ events.map RelayFrame.event } := by
  obtain hsame | ⟨s, b, hs, -, heffect⟩ := h.perform_eq_or_takesEffect now id request
  · exact ⟨[], by simp [hsame, hq]⟩
  · obtain ⟨greeting, hgreeting⟩ := exists_greeting_effect r.account r.histories.capacity
      r.files.maxSize b now request s (r.kept b.key)
    rw [heffect.queueOf h (h.perform now id request) hs, hq, Option.map_some, Effect.deliver,
      hgreeting]
    have hgreeted : ∃ events : List Event,
        (if id = id' then q.sendAll (greeting.map RelayFrame.event) else q) =
          { q with frames := q.frames ++ events.map RelayFrame.event } := by
      rw [Queue.sendAll_eq]
      split
      · split
        · exact ⟨greeting, rfl⟩
        · exact ⟨[], by simp⟩
      · exact ⟨[], by simp⟩
    obtain ⟨events, hevents⟩ := hgreeted
    rw [hevents, Queue.offers_eq]
    split
    · split
      · exact ⟨events ++ List.take _ _, by rw [List.map_append, List.append_assoc]⟩
      · exact ⟨events, rfl⟩
    · exact ⟨events, rfl⟩

theorem Listens.perform (hl : r.Listens id) (h : r.Sound) (now : Timestamp) (id' : SessionId)
    (request : Request) : (r.perform now id' request).2.Listens id := by
  obtain ⟨⟨s, hs, hopen⟩, q, hq, hreceiving⟩ := hl
  obtain ⟨events, hevents⟩ := h.queueOf_perform now id' request hq
  refine ⟨?_, _, hevents, hreceiving⟩
  obtain hsame | ⟨s', b, hs', -, heffect⟩ := h.perform_eq_or_takesEffect now id' request
  · exact ⟨s, by rw [hsame, hs], hopen⟩
  · rw [heffect.session]
    by_cases hi : id' = id
    · subst hi
      rw [hs, Option.some.injEq] at hs'
      subst hs'
      refine ⟨_, if_pos rfl, ?_⟩
      obtain hsession | ⟨-, hsession⟩ := session_effect r.account r.histories.capacity
        r.files.maxSize b now request s (r.kept b.key)
      · rw [hsession, hopen]
      · rw [hsession, hopen]
    · exact ⟨s, by rw [if_neg hi, hs], hopen⟩

theorem Listens.touch (hl : r.Listens id) (h : r.Sound) {id' : SessionId} {f : Queue → Queue}
    (hf : id' = id → ∀ q, (f q).receiving = q.receiving) : (r.touch id' f).Listens id := by
  obtain ⟨hs, q, hq, hreceiving⟩ := hl
  refine ⟨by rwa [(sameCast_touch r id' f).sessions], ?_⟩
  rw [h.queueOf_touch, hq]
  by_cases hi : id' = id
  · exact ⟨f q, by rw [if_pos hi, Option.map_some], by rw [hf hi, hreceiving]⟩
  · exact ⟨q, by rw [if_neg hi], hreceiving⟩

theorem Listens.disconnect (hl : r.Listens id) {id' : SessionId} (hi : id' ≠ id) :
    (r.disconnect id').Listens id := by
  obtain ⟨⟨s, hs, hopen⟩, hq⟩ := hl
  have hsame : (r.disconnect id').sessions.get? id = r.sessions.get? id := by
    unfold Relay.disconnect
    cases r.sessions.get? id' with
    | none => rfl
    | some s' => rw [Table.get?_insert, if_neg hi]
  have hqueues : (r.disconnect id').queues = r.queues := by
    unfold Relay.disconnect
    cases r.sessions.get? id' <;> rfl
  refine ⟨⟨s, hsame.trans hs, hopen⟩, ?_⟩
  rwa [queueOf, hsame, hqueues]

theorem Listens.connect (hl : r.Listens id) (h : r.Sound) (principal : Option Principal)
    (capacity : Nat) : (r.connect principal capacity).2.Listens id := by
  obtain ⟨⟨s, hs, hopen⟩, q, hq, hreceiving⟩ := hl
  have hi : r.nextSession ≠ id := fun hi => by simp [h.unused id (Nat.le_of_eq hi)] at hs
  refine ⟨⟨s, ?_, hopen⟩, q, ?_, hreceiving⟩
  · simp only [Relay.connect, Table.get?_insert, if_neg hi, hs]
  · rw [h.queueOf_eq hs] at hq
    have hout := h.outbound_eq id s hs
    simp only [queueOf, Relay.connect, Table.get?_insert, if_neg hi, hs, Option.bind_some, hout, hq]

theorem Listens.invoke (hl : r.Listens id) (h : r.Sound) (now : Timestamp) (id' : SessionId)
    (frame : DeviceFrame) : (r.invoke now id' frame).Listens id := by
  rw [invoke_eq]
  refine (hl.perform h now id' frame.request).touch (h.perform now id' frame.request) fun _ q => ?_
  rw [Queue.send]
  split <;> rfl

theorem Listens.turn (hl : r.Listens id) (h : r.Sound) {maxMessage : Nat} {t : Turn}
    (ht : t.Spares maxMessage id) : (r.turn maxMessage t).Listens id := by
  cases t with
  | message now id' message =>
      by_cases hi : id' = id
      · obtain ⟨hsize, hopen⟩ := ht hi
        cases hcall : message.call? with
        | none =>
            rw [Relay.turn, receive_of_no_call hsize hopen hcall]
            exact hl
        | some frame =>
            rw [Relay.turn, receive_of_call hsize hcall]
            exact hl.invoke h now id' frame
      · refine receive_cases r maxMessage now id' message (motive := fun r => r.Listens id) hl ?_
          (hl.invoke h now id')
        exact (hl.disconnect hi).touch (h.disconnect id') fun heq => absurd heq hi
  | act a =>
      cases a with
      | connect principal capacity => exact hl.connect h principal capacity
      | call now id' request => exact hl.perform h now id' request
      | read id' count => exact hl.touch h fun _ _ => rfl
      | dropQueue id' => exact hl.touch h fun heq => absurd heq ht
      | disconnect id' => exact hl.disconnect ht
      | ask now provider request => exact hl

theorem Listens.serve (hl : r.Listens id) (h : r.Sound) {maxMessage : Nat} {turns : List Turn}
    (hturns : ∀ t ∈ turns, t.Spares maxMessage id) : (r.serve maxMessage turns).Listens id := by
  induction turns generalizing r with
  | nil => exact hl
  | cons t turns ih =>
      exact ih (hl.turn h (hturns t List.mem_cons_self)) (h.turn maxMessage t)
        fun t' ht' => hturns t' (List.mem_cons_of_mem t ht')

/-! ## What is received -/

end

end Relay

end ClipRelay
