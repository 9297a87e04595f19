import ClipRelay.Account.Credential
import ClipRelay.Account.Settings
import ClipRelay.Http.Reply
import ClipRelay.Json.Reader

/-!
# ClipRelay.Account.Provider

Who an identity provider says a caller is.

The caller hands over an identity token or an access token.  The relay asks the
provider what it knows about it (`request` says which token is asked about) and
accepts the answer only for one of the relay's own clients (`check`).  The rules
do not depend on how the provider is asked: `validateIn` asks in any monad, and in
`validate` the answers are a function of the lookups.
-/

namespace ClipRelay

/-- What the provider knows about a token. -/
structure TokenFacts where
  audience : Option String
  authorizedParty : Option String
  issuer : Option String
  subject : Option String
  userId : Option String
  email : Option String
deriving DecidableEq

/-- The lookup of a token. -/
structure Lookup where
  kind : ProviderToken
  token : String
deriving DecidableEq

namespace TokenFacts

/-- The members of an answer read so far. -/
structure Draft where
  audience : Option (Option String) := none
  authorizedParty : Option (Option String) := none
  issuer : Option (Option String) := none
  subject : Option (Option String) := none
  userId : Option (Option String) := none
  email : Option (Option String) := none

def Draft.finish (d : Draft) : Option TokenFacts :=
  some ⟨d.audience.join, d.authorizedParty.join, d.issuer.join, d.subject.join, d.userId.join,
    d.email.join⟩

/-- A text or null. -/
def text? : Json.Reader (Option String) := Json.Reader.nullable Json.Reader.string

/-- The answer may lack any of its members. -/
def reader : Json.Reader TokenFacts :=
  Json.Reader.record
    [.named "aud" Draft.audience (fun d v => { d with audience := some v }) text?,
      .named "azp" Draft.authorizedParty (fun d v => { d with authorizedParty := some v }) text?,
      .named "iss" Draft.issuer (fun d v => { d with issuer := some v }) text?,
      .named "sub" Draft.subject (fun d v => { d with subject := some v }) text?,
      .named "user_id" Draft.userId (fun d v => { d with userId := some v }) text?,
      .named "email" Draft.email (fun d v => { d with email := some v }) text?]
    {} Draft.finish

end TokenFacts

namespace Provider

/-- The names under which the provider issues identity tokens. -/
def issuers : List String := ["accounts.google.com", "https://accounts.google.com"]

/-- The lookup to make for a caller's tokens: of the identity token, else of the
access token, without white space around it.  Nothing is looked up for a relay
that has no clients. -/
def request (clientIds : List String) (idToken accessToken : Option String) :
    Except CredentialError Lookup :=
  if clientIds.isEmpty then .error .clientIdsMissing
  else match Text.nonBlank? idToken, Text.nonBlank? accessToken with
    | some t, _ => .ok ⟨.id, Text.trim t⟩
    | none, some t => .ok ⟨.access, Text.trim t⟩
    | none, none => .error .credentialRequired

/-- Whom a token belongs to, going by what the provider knows about it: it was
made for one of the clients, an identity token comes from the provider itself,
and it names a subject. -/
def check (clientIds : List String) (kind : ProviderToken) (info : TokenFacts) :
    Except CredentialError Principal :=
  let audience := (info.audience.or info.authorizedParty).getD ""
  let subject := Text.trim ((info.subject.or info.userId).getD "")
  if audience = "" ∨ audience ∉ clientIds then .error .audienceNotAllowed
  else if kind = .id ∧ info.issuer.getD "" ∉ issuers then .error .foreignIssuer
  else if subject = "" then .error .subjectMissing
  else .ok ⟨subject, Text.nonBlank? info.email⟩

/-- Whom a token belongs to, going by the answer to its lookup. -/
def judge (clientIds : List String) (kind : ProviderToken) : Http.Reply →
    Except CredentialError Principal
  | .unreachable => .error .providerUnreachable
  | .answered status body =>
    if Http.isSuccess status then
      match TokenFacts.reader.whole body with
      | .ok info => check clientIds kind info
      | .error _ => .error .unreadableAnswer
    else .error (.providerRejected kind)

/-- Whom a caller's tokens belong to, with a way to `ask` the provider. -/
def validateIn {m : Type → Type} [Monad m] (clientIds : List String)
    (ask : Lookup → m Http.Reply) (idToken accessToken : Option String) :
    m (Except CredentialError Principal) := do
  match request clientIds idToken accessToken with
  | .error e => return .error e
  | .ok lookup => return judge clientIds lookup.kind (← ask lookup)

/-- Whom a caller's tokens belong to, with a provider that answers lookups. -/
def validate (clientIds : List String) (provider : Lookup → Http.Reply)
    (idToken accessToken : Option String) : Except CredentialError Principal :=
  Id.run (validateIn clientIds (fun lookup => pure (provider lookup)) idToken accessToken)

end Provider

end ClipRelay
