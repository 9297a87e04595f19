import ClipRelay.Bytes

/-!
# ClipRelay.Http.Reply

What comes back from an HTTP server that is asked something.
-/

namespace ClipRelay.Http

/-- The answer of a server, if it could be reached. -/
inductive Reply where
  | unreachable
  | answered (status : Nat) (body : Bytes)
deriving DecidableEq

/-- Whether a status means success. -/
def isSuccess (status : Nat) : Bool := 200 ≤ status && status < 300

end ClipRelay.Http
