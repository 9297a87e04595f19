import ClipRelay.Device.Settings
import ClipRelay.Http.Reply

/-!
# ClipRelay.Device.SignIn

The calls a device makes on the relay's HTTP side: whether there is an account
mode, and signing in.

A call is a value, and so is the reply; what is done with them does not depend
on how they travel.  A reply that cannot be read counts like one that never
came.
-/

namespace ClipRelay

/-- What a relay tells a device about its account mode. -/
structure ServerStatus where
  enabled : Bool
  issuerConfigured : Bool
  audienceConfigured : Bool
  issuer : String
  audience : String
  identityProviderConfigured : Bool
deriving DecidableEq

/-- A device's signing-in: its bearer token, and whose it is until when. -/
structure AccountSession where
  token : String
  expiresAt : Timestamp
  subject : String
  email : Option String
deriving DecidableEq

/-- A call on the relay's HTTP side. -/
structure HttpCall where
  method : String
  url : String
  body : Option Json := none

namespace Account

/-- The address of a relay, without white space around it and slashes at its end. -/
def base (url : String) : Except DeviceError String :=
  let base := DeviceSettings.trimSlashes (Text.trim url)
  if base = "" then .error (.config .serverUrlMissing) else .ok base

/-- The body of the reply to a call, if the call succeeded. -/
def body (url : String) : Http.Reply → Except DeviceError Bytes
  | .unreachable => .error .http
  | .answered status body =>
    if Http.isSuccess status then .ok body
    else .error (.server status url ((Bytes.toText? body).getD ""))

/-- The value that the reply to a call holds. -/
def value {α : Type} (r : Json.Reader α) (url : String) (reply : Http.Reply) :
    Except DeviceError α :=
  match body url reply with
  | .error e => .error e
  | .ok bytes => (r.whole bytes).mapError fun _ => .http

/-! ## The account mode -/

def statusCall (base : String) : HttpCall where
  method := "GET"
  url := base ++ "/auth/status"

/-- The members of a status read so far. -/
structure StatusDraft where
  enabled : Option Bool := none
  issuerConfigured : Option Bool := none
  audienceConfigured : Option Bool := none
  issuer : Option String := none
  audience : Option String := none
  identityProviderConfigured : Option Bool := none

def StatusDraft.finish (d : StatusDraft) : Option ServerStatus := do
  some ⟨← d.enabled, d.issuerConfigured.getD false, d.audienceConfigured.getD false,
    d.issuer.getD "", d.audience.getD "", d.identityProviderConfigured.getD false⟩

/-- All but the first member may be missing. -/
def statusReader : Json.Reader ServerStatus :=
  Json.Reader.record
    [.named "enabled" StatusDraft.enabled (fun d v => { d with enabled := some v })
        Json.Reader.bool,
      .named "issuerConfigured" StatusDraft.issuerConfigured
        (fun d v => { d with issuerConfigured := some v }) Json.Reader.bool,
      .named "audienceConfigured" StatusDraft.audienceConfigured
        (fun d v => { d with audienceConfigured := some v }) Json.Reader.bool,
      .named "issuer" StatusDraft.issuer (fun d v => { d with issuer := some v })
        Json.Reader.string,
      .named "audience" StatusDraft.audience (fun d v => { d with audience := some v })
        Json.Reader.string,
      .named "identityProviderIdsConfigured" StatusDraft.identityProviderConfigured
        (fun d v => { d with identityProviderConfigured := some v }) Json.Reader.bool]
    {} StatusDraft.finish

/-- Asks a relay about its account mode. -/
def status (fetch : HttpCall → Http.Reply) (url : String) : Except DeviceError ServerStatus :=
  match base url with
  | .error e => .error e
  | .ok base => value statusReader (statusCall base).url (fetch (statusCall base))

/-! ## Signing in -/

/-- The call that signs in with a token of the identity provider. -/
def loginCall (base : String) (idToken accessToken : Option String) : Except DeviceError HttpCall :=
  let idToken := Text.nonBlank? idToken
  let accessToken := Text.nonBlank? accessToken
  if idToken.isNone && accessToken.isNone then .error (.config .credentialMissing)
  else .ok
    { method := "POST"
      url := base ++ "/auth/google"
      body := some <| .object
        [("idToken", .ofOption idToken), ("accessToken", .ofOption accessToken)] }

/-- What a relay answers to a sign-in. -/
structure LoginAnswer where
  token : String
  expires : Int64
  subject : Option String
  email : Option String

/-- The members of an answer to a sign-in read so far. -/
structure LoginDraft where
  token : Option String := none
  expires : Option Int64 := none
  subject : Option (Option String) := none
  email : Option (Option String) := none

def LoginDraft.finish (d : LoginDraft) : Option LoginAnswer := do
  some ⟨← d.token, ← d.expires, d.subject.join, d.email.join⟩

/-- Subject and email may be missing. -/
def loginReader : Json.Reader LoginAnswer :=
  Json.Reader.record
    [.named "token" LoginDraft.token (fun d v => { d with token := some v }) Json.Reader.string,
      .named "expiresUtcMs" LoginDraft.expires (fun d v => { d with expires := some v })
        Json.Reader.int64,
      .named "subject" LoginDraft.subject (fun d v => { d with subject := some v })
        (Json.Reader.nullable Json.Reader.string),
      .named "email" LoginDraft.email (fun d v => { d with email := some v })
        (Json.Reader.nullable Json.Reader.string)]
    {} LoginDraft.finish

/-- The earliest time of the calendar. -/
def minTime : Timestamp := -8334601228800000

/-- The latest time of the calendar. -/
def maxTime : Timestamp := 8210266876799999

/-- The session that an answer to a sign-in opens: it has a token, and expires
at a time of the calendar. -/
def session (a : LoginAnswer) : Except DeviceError AccountSession :=
  if Text.isBlank a.token ∨ a.expires < minTime ∨ maxTime < a.expires then
    .error (.unexpectedResponse "auth/google")
  else .ok ⟨a.token, a.expires, a.subject.getD "", a.email⟩

/-- Signs in with a token of the identity provider. -/
def login (fetch : HttpCall → Http.Reply) (url : String) (idToken accessToken : Option String) :
    Except DeviceError AccountSession :=
  match base url with
  | .error e => .error e
  | .ok base =>
    match loginCall base idToken accessToken with
    | .error e => .error e
    | .ok call =>
      match value loginReader call.url (fetch call) with
      | .error e => .error e
      | .ok a => session a

end Account

end ClipRelay
