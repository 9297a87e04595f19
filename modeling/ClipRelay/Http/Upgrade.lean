import ClipRelay.Account.BearerToken
import ClipRelay.Http.Message
import ClipRelay.Http.Percent

/-!
# ClipRelay.Http.Upgrade

Opening a session: the request that turns a connection into a WebSocket.

In account mode the first token that is there decides: the query's, else the
header's.  A token that does not hold up is refused, never ignored; without any
token the session is anonymous and can join no room.  Where callers share
secrets, tokens are not looked at.

A request may also be dropped: where the check of its token breaks off, its
connection ends without an answer.
-/

namespace ClipRelay.Http

/-- Whether a text contains another. -/
def contains (needle : List Char) : List Char → Bool
  | [] => needle.isEmpty
  | c :: cs => needle.isPrefixOf (c :: cs) || contains needle cs

/-- The status with which a request is turned away that does not ask properly
for a WebSocket. -/
def handshakeFault? (r : Request) : Option Nat :=
  if r.method ≠ "GET" then some 405
  else if !((r.textHeader? "connection").map fun v =>
      contains "upgrade".toList v.toLower.toList).getD false then some 400
  else if (r.header? "upgrade").map String.toLower ≠ some "websocket" then some 400
  else if r.header? "sec-websocket-version" ≠ some "13" then some 400
  else if (r.header? "sec-websocket-key").isNone then some 400
  else if !r.canUpgrade then some 426
  else none

/-- The token in a query, which may name it once. -/
def queryToken (query : String) : Except Unit (Option String) :=
  match (queryPairs query).filter fun p => p.1 = "access_token" with
  | [] => .ok none
  | [p] => .ok (some p.2)
  | _ => .error ()

/-- The principal that a token stands for; else the answer to whoever shows it,
if there is one. -/
def principalOf (account : AccountSettings) (now : Timestamp) (token : String) :
    Except (Option Answer) Principal :=
  match (Issuer.ofSettings account).validate now token with
  | .ok p => .ok p
  | .error e => .error (some (.error 401 e.describe))
  | .brokenOff => .error none

/-- Decides whether a connection becomes a session, and whose it is.  If it does
not, the request is answered or dropped. -/
def upgrade (account : AccountSettings) (now : Timestamp) (r : Request) :
    Except (Option Answer) (Option Principal) :=
  match queryToken r.query with
  | .error () => .error (some (.reject 400))
  | .ok inQuery =>
    match handshakeFault? r with
    | some status => .error (some (.reject status))
    | none =>
      match (Text.nonBlank? inQuery).or r.bearer? with
      | none => .ok none
      | some token =>
        if account.enabled then (principalOf account now token).map some else .ok none

end ClipRelay.Http
