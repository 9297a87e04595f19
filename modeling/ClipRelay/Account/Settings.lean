import ClipRelay.Text.Blank
import ClipRelay.Text.Quoted

/-!
# ClipRelay.Account.Settings

The settings of account mode.
-/

namespace ClipRelay

/-- How callers authenticate. -/
structure AccountSettings where
  enabled : Bool := false
  issuer : String := "ClipboardSync"
  audience : String := "ClipboardSync"
  signingKey : String := ""
  /-- The client ids whose identity tokens are accepted. -/
  clientIds : List String := []
  /-- How long a relay token is asked to last. -/
  tokenMinutes : Int64 := 720
deriving DecidableEq

/-- What a relay tells about its account mode. -/
structure AccountStatus where
  enabled : Bool
  issuerConfigured : Bool
  audienceConfigured : Bool
  identityProviderConfigured : Bool
deriving DecidableEq, Repr

namespace AccountSettings

def status (c : AccountSettings) : AccountStatus where
  enabled := c.enabled
  issuerConfigured := !Text.isBlank c.issuer
  audienceConfigured := !Text.isBlank c.audience
  identityProviderConfigured := !c.clientIds.isEmpty

/-- The settings as one line for a log, without the signing key. -/
def describe (c : AccountSettings) : String :=
  "AuthConfig \x7b enabled: " ++ toString c.enabled ++
  ", jwt_issuer: " ++ Text.quoted c.issuer ++
  ", jwt_audience: " ++ Text.quoted c.audience ++
  ", jwt_signing_key_set: " ++ toString (!c.signingKey.isEmpty) ++
  ", google_client_ids: [" ++ ", ".intercalate (c.clientIds.map Text.quoted) ++
  "], access_token_minutes: " ++ toString c.tokenMinutes.toInt ++ " \x7d"

end AccountSettings

end ClipRelay
