import ClipRelay.Call
import ClipRelay.Table

/-!
# ClipRelay.Relay.Queue

The queues of frames on their way to the sessions.

A queue is bounded.  An event of a room is only offered: it is dropped where
the queue is full, so that a slow session holds nobody up.  An answer, and what
a session is sent on joining, waits for room instead; it stands behind what is
queued already.  Once the receiving end is gone, nothing is queued any more.
-/

namespace ClipRelay

/-- The name of a queue. -/
abbrev QueueId := Nat

/-- A bounded queue of frames, oldest first. -/
structure Queue where
  capacity : Nat
  frames : List RelayFrame := []
  receiving : Bool := true

namespace Queue

/-- Whether a frame that is offered would be taken. -/
def hasRoom (q : Queue) : Bool := q.receiving && q.frames.length < q.capacity

/-- Queues a frame if there is room for it. -/
def offer (f : RelayFrame) (q : Queue) : Queue :=
  if q.hasRoom then { q with frames := q.frames ++ [f] } else q

/-- Offers events one after the other. -/
def offers (events : List Event) (q : Queue) : Queue :=
  events.foldl (fun q e => q.offer (.event e)) q

/-- Queues a frame, which waits until there is room for it. -/
def send (f : RelayFrame) (q : Queue) : Queue :=
  if q.receiving then { q with frames := q.frames ++ [f] } else q

/-- Queues frames one after the other. -/
def sendAll (fs : List RelayFrame) (q : Queue) : Queue := fs.foldl (fun q f => q.send f) q

/-- The queue after so many of its frames were received. -/
def dropFront (count : Nat) (q : Queue) : Queue := { q with frames := q.frames.drop count }

/-- The queue after everything in it was received. -/
def drained (q : Queue) : Queue := { q with frames := [] }

/-- The queue after its receiving end is gone. -/
def closed (q : Queue) : Queue := { q with frames := [], receiving := false }

theorem sendAll_nil : sendAll [] = id := rfl

theorem sendAll_cons (f : RelayFrame) (fs : List RelayFrame) :
    sendAll (f :: fs) = sendAll fs ∘ send f := rfl

/-- All frames wait, in order, unless nobody receives them. -/
theorem sendAll_eq (fs : List RelayFrame) (q : Queue) :
    q.sendAll fs = if q.receiving then { q with frames := q.frames ++ fs } else q := by
  induction fs generalizing q with
  | nil => simp [sendAll]
  | cons f fs ih =>
      rw [sendAll_cons, Function.comp_apply, ih]
      by_cases hr : q.receiving
      · simp [send, hr]
      · simp [send, hr]

theorem exists_sendAll (fs : List RelayFrame) (q : Queue) :
    ∃ sent, (q.sendAll fs).frames = q.frames ++ sent := by
  rw [sendAll_eq]
  by_cases hr : q.receiving
  · exact ⟨fs, by rw [if_pos hr]⟩
  · exact ⟨[], by rw [if_neg hr, List.append_nil]⟩

/-- Of the events that are offered as many are taken, in order, as there is room
for, and none if nobody receives them. -/
theorem offers_eq (events : List Event) (q : Queue) :
    q.offers events =
      if q.receiving then
        { q with
          frames := q.frames ++ (events.take (q.capacity - q.frames.length)).map .event }
      else q := by
  induction events generalizing q with
  | nil => simp [offers]
  | cons e events ih =>
      have hcons : q.offers (e :: events) = (q.offer (.event e)).offers events := rfl
      rw [hcons, ih]
      by_cases hreceiving : q.receiving
      · by_cases hroom : q.frames.length < q.capacity
        · have hfree : q.capacity - q.frames.length =
              q.capacity - (q.frames.length + 1) + 1 := by omega
          simp [offer, hasRoom, hreceiving, hroom, hfree]
        · have hfull : q.capacity - q.frames.length = 0 := by omega
          simp [offer, hasRoom, hreceiving, hroom, hfull]
      · simp [offer, hasRoom, hreceiving]

/-- What is taken of what is offered stands behind what waits already. -/
theorem exists_offers (events : List Event) (q : Queue) :
    ∃ taken, (q.offers events).frames = q.frames ++ taken := by
  rw [offers_eq]
  by_cases hreceiving : q.receiving
  · exact ⟨_, by rw [if_pos hreceiving]⟩
  · exact ⟨[], by rw [if_neg hreceiving, List.append_nil]⟩

end Queue

/-- All queues by name. -/
abbrev Queues := Table QueueId Queue

end ClipRelay
