import ClipRelay.Http.Router
import ClipRelay.Relay.Calls

/-!
# ClipRelay.Relay.Run

The relay taking one action after another.

Connections open and close, sessions make calls and take in what waits for
them, receivers go away, and pages are asked for over HTTP.  `Relay.step` takes
one such action and says what it brings to light; `Relay.run` takes any number
of them.  A relay is `Reachable` under given settings if some run leads to it
from the empty relay.
-/

namespace ClipRelay.Relay

/-- What can happen to a relay. -/
inductive Action where
  /-- A connection becomes a session, with a queue of a given capacity. -/
  | connect (principal : Option Principal) (capacity : Nat)
  /-- A session makes a call. -/
  | call (now : Timestamp) (id : SessionId) (request : Request)
  /-- The receiver of a session takes in so many frames. -/
  | read (id : SessionId) (count : Nat)
  /-- The receiver of a session goes away. -/
  | dropQueue (id : SessionId)
  /-- A session ends. -/
  | disconnect (id : SessionId)
  /-- A page is asked for; `provider` answers what the relay looks up meanwhile. -/
  | ask (now : Timestamp) (provider : Lookup → Http.Reply) (request : Http.Request)

/-- What an action brings to light. -/
inductive Observation where
  | connected (id : SessionId)
  | answered (result : Except Refusal Response)
  | received (frames : List RelayFrame)
  /-- A page is shown, or none if the request is dropped. -/
  | shown (page : Option Http.Answer)
  | nothing

/-- Takes one action. -/
def step (r : Relay) : Action → Observation × Relay
  | .connect principal capacity =>
    (.connected (r.connect principal capacity).1, (r.connect principal capacity).2)
  | .call now id request =>
    (.answered (r.perform now id request).1, (r.perform now id request).2)
  | .read id count => (.received (r.read id count).1, (r.read id count).2)
  | .dropQueue id => (.nothing, r.dropQueue id)
  | .disconnect id => (.nothing, r.disconnect id)
  | .ask now provider request => (.shown (Http.answer r now provider request), r)

/-- The relay after some actions. -/
def run (r : Relay) : List Action → Relay
  | [] => r
  | a :: as => run (r.step a).2 as

/-- The relays that a run leads to under given settings. -/
inductive Reachable (account : AccountSettings) (capacity : Nat) : Relay → Prop where
  | empty : Reachable account capacity (empty account capacity)
  | step {r : Relay} (a : Action) :
      Reachable account capacity r → Reachable account capacity (r.step a).2

theorem Reachable.run {account : AccountSettings} {capacity : Nat} {r : Relay}
    (h : Reachable account capacity r) (as : List Action) :
    Reachable account capacity (r.run as) := by
  induction as generalizing r with
  | nil => exact h
  | cons a as ih => exact ih (h.step a)

end ClipRelay.Relay
