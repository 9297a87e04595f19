import ClipRelay.Call

/-!
# ClipRelay.Account.Credential

Who a caller is, and why a credential is refused.

`CredentialError` names the causes.  A cause is either the caller's, a bad
credential, or the operator's, a setting that is missing; `CredentialError.message`
gives the wording and `CredentialError.describe` puts the side in front of it.
-/

namespace ClipRelay

/-- An authenticated caller. -/
structure Principal where
  subject : String
  email : Option String
deriving DecidableEq, Repr

/-- The two credentials of an identity provider. -/
inductive ProviderToken where
  | id
  | access
deriving DecidableEq, Repr

/-- The name of a provider credential in a lookup. -/
def ProviderToken.name : ProviderToken → String
  | .id => "id_token"
  | .access => "access_token"

/-- Why a caller is not authenticated. -/
inductive CredentialError where
  -- settings that are missing
  | signingKeyMissing
  | clientIdsMissing
  -- tokens of the relay
  | subjectRequired
  | malformedToken
  | malformedSegment
  | malformedClaims
  | unsupportedAlgorithm
  | malformedSignature
  | signatureMismatch
  | issuerMismatch
  | audienceMismatch
  | expired
  | notYetValid
  | subjectBlank
  -- credentials of the identity provider
  | credentialRequired
  | providerUnreachable
  | providerRejected (token : ProviderToken)
  | unreadableAnswer
  | audienceNotAllowed
  | foreignIssuer
  | subjectMissing
deriving DecidableEq, Repr

namespace CredentialError

/-- Whether the fault lies with the settings of the relay. -/
def isConfiguration : CredentialError → Bool
  | .signingKeyMissing | .clientIdsMissing => true
  | _ => false

/-- The wording of a cause. -/
def message : CredentialError → String
  | .signingKeyMissing => "AUTH_JWT_SIGNING_KEY must be set when auth is enabled"
  | .clientIdsMissing => "AUTH_GOOGLE_CLIENT_IDS must be configured when auth is enabled"
  | .subjectRequired => "subject is required"
  | .malformedToken => "malformed token"
  | .malformedSegment => "malformed token segment"
  | .malformedClaims => "malformed token claims"
  | .unsupportedAlgorithm => "unsupported token algorithm"
  | .malformedSignature => "malformed token signature"
  | .signatureMismatch => "token signature mismatch"
  | .issuerMismatch => "token issuer mismatch"
  | .audienceMismatch => "token audience mismatch"
  | .expired => "token expired"
  | .notYetValid => "token not yet valid"
  | .subjectBlank => "token has no subject"
  | .credentialRequired => "either idToken or accessToken must be provided"
  | .providerUnreachable => "identity provider unreachable"
  | .providerRejected token => "identity provider rejected the " ++ token.name
  | .unreadableAnswer => "unreadable tokeninfo response: error decoding response body"
  | .audienceNotAllowed => "token audience is not allowed"
  | .foreignIssuer => "token issuer is not Google"
  | .subjectMissing => "token did not include a subject"

/-- The wording of a cause with the side it lies on. -/
def describe (e : CredentialError) : String :=
  (if e.isConfiguration then "Configuration error: " else "Invalid credential: ") ++ e.message

/-- The kind of failure of a call that the cause makes fail. -/
def kind (e : CredentialError) : CallErrorKind :=
  if e.isConfiguration then .configuration else .invalidCredential

end CredentialError

end ClipRelay
