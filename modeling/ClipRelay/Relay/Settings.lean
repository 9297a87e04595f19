import ClipRelay.Account.Settings
import ClipRelay.Relay.Basic
import ClipRelay.SocketAddress

/-!
# ClipRelay.Relay.Settings

The settings of a relay, read from the variables of its environment.

A variable that is not set, or holds something unusable, leaves the default.
-/

namespace ClipRelay

/-- The settings of a relay. -/
structure RelaySettings where
  httpAddress : SocketAddress := .v4 [0, 0, 0, 0] 8080
  /-- The longest message of a client, in bytes. -/
  maxMessageBytes : Nat := 12582912
  /-- How many items a room keeps. -/
  historyCapacity : Nat := Relay.defaultHistoryCapacity
  account : AccountSettings := {}

namespace RelaySettings

/-- The bound on sizes and counts. -/
def sizeBound : Nat := UInt64.size

/-- A number greater than zero. -/
def positive? (s : String) : Option Nat :=
  (Text.Decimal.unsigned? sizeBound s).filter (0 < ·)

/-- Whether a text says yes. -/
def isYes (s : String) : Bool :=
  ["true", "1", "yes"].contains (String.ofList ((Text.trim s).toList.map Char.toLower))

/-- The members of a list between commas. -/
def commaList (s : String) : List String :=
  ((s.toList.splitOnP (· == ',')).map fun cs => Text.trim (String.ofList cs)).filter (· ≠ "")

/-- The settings in an environment, in which a variable may or may not be set. -/
def ofEnv (env : String → Option String) : RelaySettings :=
  let d : RelaySettings := {}
  { httpAddress := ((env "HTTP_ADDR").bind SocketAddress.parse?).getD d.httpAddress
    maxMessageBytes := ((env "MAX_MESSAGE_BYTES").bind positive?).getD d.maxMessageBytes
    historyCapacity := ((env "HISTORY_CAPACITY").bind positive?).getD d.historyCapacity
    account :=
      { enabled := ((env "AUTH_ENABLED").map isYes).getD d.account.enabled
        issuer := (Text.nonBlank? (env "AUTH_JWT_ISSUER")).getD d.account.issuer
        audience := (Text.nonBlank? (env "AUTH_JWT_AUDIENCE")).getD d.account.audience
        signingKey := (env "AUTH_JWT_SIGNING_KEY").getD d.account.signingKey
        clientIds := ((env "AUTH_GOOGLE_CLIENT_IDS").map commaList).getD d.account.clientIds
        tokenMinutes :=
          ((env "AUTH_ACCESS_TOKEN_MINUTES").bind Text.Decimal.int64?).getD
            d.account.tokenMinutes } }

end RelaySettings

end ClipRelay
