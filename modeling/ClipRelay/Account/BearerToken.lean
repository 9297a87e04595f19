import ClipRelay.Account.Credential
import ClipRelay.Account.Settings
import ClipRelay.Digest.Base64Url
import ClipRelay.Digest.Hmac
import ClipRelay.Json.Reader

/-!
# ClipRelay.Account.BearerToken

The bearer tokens that the relay issues: JSON Web Tokens under HMAC-SHA-256.

A token is three base64url texts joined by points: a header, the claims, and
the authentication code of the first two.  `Issuer.issue` writes one for a
subject and `Issuer.validate` decides whose it is.  A token counts from
its start to its expiry, with a minute's grace on either side for clocks that
disagree; all of this is counted in whole seconds.  Where the grace cannot be
added in 64 bits, the relay breaks off without a decision (`Validation`).
-/

namespace ClipRelay

/-! ## Header and claims -/

/-- How a token is signed. -/
structure TokenHeader where
  algorithm : String
  type : String
deriving DecidableEq

/-- What a token says. -/
structure Claims where
  subject : String
  email : Option String
  issuer : String
  audience : String
  notBefore : Int64
  issuedAt : Int64
  expires : Int64
deriving DecidableEq

namespace TokenHeader

/-- The header of the tokens that the relay issues. -/
def issued : TokenHeader := ⟨"HS256", "JWT"⟩

def toJson (h : TokenHeader) : Json :=
  .object [("alg", .string h.algorithm), ("typ", .string h.type)]

/-- The members of a header read so far. -/
structure Draft where
  algorithm : Option String := none
  type : Option String := none

def Draft.finish (d : Draft) : Option TokenHeader := do some ⟨← d.algorithm, ← d.type⟩

def reader : Json.Reader TokenHeader :=
  Json.Reader.record
    [.named "alg" Draft.algorithm (fun d v => { d with algorithm := some v }) Json.Reader.string,
      .named "typ" Draft.type (fun d v => { d with type := some v }) Json.Reader.string]
    {} Draft.finish

end TokenHeader

namespace Claims

/-- An email that is not known is left out. -/
def toJson (c : Claims) : Json :=
  .object <| [("sub", .string c.subject)] ++
    (c.email.map fun e => ("email", Json.string e)).toList ++
    [("iss", .string c.issuer), ("aud", .string c.audience), ("nbf", .int c.notBefore.toInt),
      ("iat", .int c.issuedAt.toInt), ("exp", .int c.expires.toInt)]

/-- The members of claims read so far. -/
structure Draft where
  subject : Option String := none
  email : Option (Option String) := none
  issuer : Option String := none
  audience : Option String := none
  notBefore : Option Int64 := none
  issuedAt : Option Int64 := none
  expires : Option Int64 := none

def Draft.finish (d : Draft) : Option Claims := do
  some ⟨← d.subject, d.email.join, ← d.issuer, ← d.audience, ← d.notBefore, ← d.issuedAt,
    ← d.expires⟩

def reader : Json.Reader Claims :=
  Json.Reader.record
    [.named "sub" Draft.subject (fun d v => { d with subject := some v }) Json.Reader.string,
      .named "email" Draft.email (fun d v => { d with email := some v })
        (Json.Reader.nullable Json.Reader.string),
      .named "iss" Draft.issuer (fun d v => { d with issuer := some v }) Json.Reader.string,
      .named "aud" Draft.audience (fun d v => { d with audience := some v }) Json.Reader.string,
      .named "nbf" Draft.notBefore (fun d v => { d with notBefore := some v }) Json.Reader.int64,
      .named "iat" Draft.issuedAt (fun d v => { d with issuedAt := some v }) Json.Reader.int64,
      .named "exp" Draft.expires (fun d v => { d with expires := some v }) Json.Reader.int64]
    {} Draft.finish

end Claims

/-! ## The issuer -/

/-- What a relay needs to issue and to check tokens. -/
structure Issuer where
  issuer : String
  audience : String
  signingKey : Bytes
  /-- How long its tokens last. -/
  lifetimeMinutes : Int64
deriving DecidableEq

/-- A token and when it expires. -/
structure BearerToken where
  token : String
  expiresAt : Timestamp
deriving DecidableEq

/-- The whole seconds of a time, rounded down. -/
def seconds (t : Timestamp) : Int64 := Int64.ofInt (t.toInt / 1000)

/-- The sum of two numbers, if it fits into 64 bits. -/
def sum? (a b : Int64) : Option Int64 :=
  if (a + b).toInt = a.toInt + b.toInt then some (a + b) else none

theorem sum?_eq_some_iff {a b c : Int64} :
    sum? a b = some c ↔ c.toInt = a.toInt + b.toInt := by
  unfold sum?
  constructor
  · intro h
    split at h
    · next hfits => exact Option.some.inj h ▸ hfits
    · contradiction
  · intro h
    have hsum : a + b = c := Int64.toInt_inj.mp <| by
      rw [Int64.toInt_add, ← h]
      exact Int.bmod_eq_of_le c.le_toInt c.toInt_lt
    rw [hsum, if_pos h]

/-- What becomes of a text that is offered as a token. -/
inductive Validation where
  /-- It is a token, and whose. -/
  | ok (principal : Principal)
  /-- It is refused. -/
  | error (e : CredentialError)
  /-- A sum of its times does not fit into 64 bits: whatever asked about the
  token ends there and then, without an answer. -/
  | brokenOff
deriving DecidableEq, Repr

namespace Issuer

/-- A token lasts five minutes at least. -/
def minLifetime : Int64 := 5

/-- A token lasts a week at most. -/
def maxLifetime : Int64 := 7 * 24 * 60

/-- The seconds by which clocks may disagree. -/
def clockSkew : Int64 := 60

def ofSettings (c : AccountSettings) : Issuer where
  issuer := c.issuer
  audience := c.audience
  signingKey := Bytes.ofText c.signingKey
  lifetimeMinutes := max minLifetime (min c.tokenMinutes maxLifetime)

/-- How long a token lasts, in seconds. -/
def lifetimeSeconds (i : Issuer) : Int64 := i.lifetimeMinutes * 60

/-- The base64url text of a JSON value. -/
def part (j : Json) : String := Base64Url.encode j.compact

/-- The base64url text of the authentication code of the first two parts. -/
def signature (key : Bytes) (header claims : String) : Bytes :=
  Hmac.sha256 key (Bytes.ofText (header ++ "." ++ claims))

/-- Issues a token at a time. -/
def issue (i : Issuer) (now : Timestamp) (subject : String) (email : Option String) :
    Except CredentialError BearerToken :=
  if Text.isBlank subject then .error .subjectRequired
  else if i.signingKey.isEmpty then .error .signingKeyMissing
  else
    let expiresAt := now + i.lifetimeSeconds * 1000
    let claims : Claims :=
      { subject
        email := Text.nonBlank? email
        issuer := i.issuer
        audience := i.audience
        notBefore := seconds now
        issuedAt := seconds now
        expires := seconds expiresAt }
    let h := part TokenHeader.issued.toJson
    let c := part claims.toJson
    .ok ⟨h ++ "." ++ c ++ "." ++ Base64Url.encode (signature i.signingKey h c), expiresAt⟩

/-- The three parts of a token, if it has three. -/
def split (token : String) : Except CredentialError (String × String × String) :=
  match (Text.trim token).toList.splitOnP (· == '.') with
  | [h, c, s] => .ok (String.ofList h, String.ofList c, String.ofList s)
  | _ => .error .malformedToken

/-- The value that a part of a token holds. -/
def readPart {α : Type} (r : Json.Reader α) (part : String) : Except CredentialError α :=
  match Base64Url.decode? part with
  | none => .error .malformedSegment
  | some json =>
    match r.whole json with
    | .ok a => .ok a
    | .error _ => .error .malformedClaims

/-- The claims of a token that is signed with this relay's key. -/
def readClaims (i : Issuer) (token : String) : Except CredentialError Claims := do
  if i.signingKey.isEmpty then throw .signingKeyMissing
  let (h, c, s) ← split token
  let header ← readPart TokenHeader.reader h
  if header.algorithm ≠ "HS256" then throw .unsupportedAlgorithm
  match Base64Url.decode? s with
  | none => throw .malformedSignature
  | some given =>
    if given ≠ signature i.signingKey h c then throw .signatureMismatch
    readPart Claims.reader c

/-- Checks that claims are this relay's, count at a time, and name a subject. -/
def checkClaims (i : Issuer) (now : Timestamp) (claims : Claims) : Validation :=
  let now := seconds now
  if claims.issuer ≠ i.issuer then .error .issuerMismatch
  else if claims.audience ≠ i.audience then .error .audienceMismatch
  else match sum? claims.expires clockSkew with
    | none => .brokenOff
    | some latest =>
      if latest < now then .error .expired
      else match sum? now clockSkew with
        | none => .brokenOff
        | some ahead =>
          if ahead < claims.notBefore then .error .notYetValid
          else if Text.isBlank claims.subject then .error .subjectBlank
          else .ok ⟨claims.subject, claims.email⟩

/-- Decides whose token a text is at a time. -/
def validate (i : Issuer) (now : Timestamp) (token : String) : Validation :=
  match i.readClaims token with
  | .error e => .error e
  | .ok claims => i.checkClaims now claims

end Issuer

end ClipRelay
