import ClipRelay.Account.Provider
import ClipRelay.Http.MediaType
import ClipRelay.Http.Upgrade
import ClipRelay.Relay.Basic

/-!
# ClipRelay.Http.Router

The HTTP side of the relay: what each path answers.

Nothing here changes the relay.  `Http.answer` is given the relay, the time and
a way to ask the identity provider, and gives the answer to a request, unless
the request is dropped.
-/

namespace ClipRelay.Http

/-- The places that a path can lead to. -/
inductive Route where
  | banner
  | health
  | accountStatus
  | exchange
  | whoami
  | download (roomId itemId : String)
  | socket
deriving DecidableEq, Repr

/-- The path of the WebSocket. -/
def socketPath : String := "/hub/clipboard"

/-- Where a path leads.  Room and item of a download are given as they stand in
the path; an item cannot be empty. -/
def Route.ofPath? (path : String) : Option Route :=
  if path = "/" then some .banner
  else if path = "/health" then some .health
  else if path = "/auth/status" then some .accountStatus
  else if path = "/auth/google" then some .exchange
  else if path = "/auth/whoami" then some .whoami
  else if path = socketPath then some .socket
  else match path.toList.splitOnP (· == '/') with
    | [[], first, room, item] =>
      if first = "download".toList ∧ item ≠ [] then
        some (.download (String.ofList room) (String.ofList item))
      else none
    | _ => none

/-- Whether a place answers a method. -/
def Route.allows (route : Route) (method : String) : Bool :=
  match route with
  | .exchange => method == "POST"
  | _ => method == "GET" || method == "HEAD"

/-! ## The places -/

/-- The version that the relay reports. -/
def version : String := "0.1.0"

def banner : Answer :=
  { status := 200
    body := .text
      "ClipboardSync relay is running. Connect to /hub/clipboard (WebSocket, bincode frames)." }

def health : Answer :=
  .json 200 (.object [("status", .string "ok"), ("version", .string version)])

def accountStatus (account : AccountSettings) : Answer :=
  let s := account.status
  .json 200 <| .object
    [("enabled", .bool s.enabled), ("issuerConfigured", .bool s.issuerConfigured),
      ("audienceConfigured", .bool s.audienceConfigured),
      ("identityProviderIdsConfigured", .bool s.identityProviderConfigured),
      ("issuer", .string account.issuer), ("audience", .string account.audience)]

/-- The caller that a bearer token in the headers stands for; else the answer, if
there is one. -/
def callerOf (account : AccountSettings) (now : Timestamp) (r : Request) :
    Except (Option Answer) Principal :=
  match r.bearer? with
  | none => .error (some (.error 401 "missing bearer token"))
  | some token => principalOf account now token

def whoami (account : AccountSettings) (now : Timestamp) (r : Request) : Option Answer :=
  match callerOf account now r with
  | .error a => a
  | .ok p =>
    some (.json 200 (.object [("subject", .string p.subject), ("email", .ofOption p.email)]))

/-! ### Exchange of credentials -/

/-- The credentials of an identity provider in a request. -/
structure Credentials where
  idToken : Option String
  accessToken : Option String

/-- The members of credentials read so far. -/
structure Credentials.Draft where
  idToken : Option (Option String) := none
  accessToken : Option (Option String) := none

def Credentials.Draft.finish (d : Draft) : Option Credentials :=
  some ⟨d.idToken.join, d.accessToken.join⟩

def Credentials.reader : Json.Reader Credentials :=
  Json.Reader.record
    [.named "idToken" Draft.idToken (fun d v => { d with idToken := some v })
        (Json.Reader.nullable Json.Reader.string),
      .named "accessToken" Draft.accessToken (fun d v => { d with accessToken := some v })
        (Json.Reader.nullable Json.Reader.string)]
    {} Draft.finish

/-- The longest body of a request, in bytes. -/
def maxBody : Nat := 2097152

/-- The credentials in the body of a request.  What follows them there is not
looked at. -/
def credentials (r : Request) : Except Answer Credentials :=
  if !((r.textHeader? "content-type").map MediaType.isJson).getD false then .error (.reject 415)
  else if maxBody < r.body.length then .error (.reject 413)
  else match Credentials.reader.front r.body with
    | .ok c => .ok c
    | .error .malformed => .error (.reject 400)
    | .error .mismatched => .error (.reject 422)

/-- The lookup that an exchange makes, if it gets that far. -/
def exchangeLookup? (account : AccountSettings) (r : Request) : Option Lookup :=
  match credentials r with
  | .error _ => none
  | .ok c =>
    if account.enabled then (Provider.request account.clientIds c.idToken c.accessToken).toOption
    else none

/-- Gives a relay token for a credential of the identity provider. -/
def exchange (account : AccountSettings) (now : Timestamp) (provider : Lookup → Reply)
    (r : Request) : Answer :=
  match credentials r with
  | .error a => a
  | .ok c =>
    if !account.enabled then .error 400 "auth disabled on server"
    else
      match Provider.validate account.clientIds provider c.idToken c.accessToken with
      | .error e => .error 400 e.message
      | .ok p =>
        match (Issuer.ofSettings account).issue now p.subject p.email with
        | .error e => .error 400 e.message
        | .ok issued =>
          .json 200 <| .object
            [("token", .string issued.token), ("expiresUtcMs", .int issued.expiresAt.toInt),
              ("subject", .string p.subject), ("email", .ofOption p.email)]

/-! ### Downloads -/

/-- The header that names a downloaded file; a header holds no control
characters other than the tab. -/
def disposition? (itemId : String) : Option String :=
  let name := itemId.toList.filter (· != '"')
  if name.all fun c => c == '\t' || ('\x20' ≤ c && c != '\x7f') then
    some ("attachment; filename=\"" ++ String.ofList name ++ "\"")
  else none

/-- The payload of a file in a room. -/
def payload (relay : Relay) (key : RoomKey) (itemId : String) : Answer :=
  match relay.files.get? key itemId with
  | none => .error 404 "Not found"
  | some bytes =>
    match disposition? itemId with
    | none => .reject 500
    | some d => { status := 200, body := .bytes bytes, disposition := some d }

/-- The payload of a file.  In account mode the caller's token says whose room
it is in. -/
def download (relay : Relay) (now : Timestamp) (r : Request) (roomId itemId : String) :
    Option Answer :=
  match segment? roomId, segment? itemId with
  | some roomId, some itemId =>
    let key : Except (Option Answer) RoomKey :=
      if relay.account.enabled then
        (callerOf relay.account now r).map fun p => .forSubject p.subject roomId
      else .ok (.shared roomId)
    match key with
    | .error a => a
    | .ok key => some (payload relay key itemId)
  | _, _ => some (.reject 400)

/-! ## All requests -/

/-- The answer at a place that answers the method. -/
def answerAt (relay : Relay) (now : Timestamp) (provider : Lookup → Reply) (r : Request) :
    Route → Option Answer
  | .banner => some banner
  | .health => some health
  | .accountStatus => some (accountStatus relay.account)
  | .exchange => some (exchange relay.account now provider r)
  | .whoami => whoami relay.account now r
  | .download roomId itemId => download relay now r roomId itemId
  | .socket =>
    match upgrade relay.account now r with
    | .ok _ => some { status := 101 }
    | .error a => a

/-- The answer to a request, or none if its connection ends without one.
`OPTIONS` asks what other origins may do, on any path; the body of an answer to
`HEAD` is not sent (see `Request.isHead`). -/
def answer (relay : Relay) (now : Timestamp) (provider : Lookup → Reply) (r : Request) :
    Option Answer :=
  if r.method = "OPTIONS" then some { status := 200, preflight := true }
  else match Route.ofPath? r.path with
    | none => some (.reject 404)
    | some route =>
      if route.allows r.method then answerAt relay now provider r route else some (.reject 405)

/-- Whether the body of the answer to a request is left out. -/
def Request.isHead (r : Request) : Bool := r.method == "HEAD"

end ClipRelay.Http
