import ClipRelay.Call

/-!
# ClipRelay.Device.Failure

Why something a device wanted did not happen.
-/

namespace ClipRelay

/-- Settings of a device that cannot be used. -/
inductive SettingsFault where
  | serverUrlScheme (url : String)
  | serverUrlMissing
  | credentialMissing
deriving DecidableEq, Repr

/-- Why something a device wanted did not happen. -/
inductive DeviceError where
  -- the session with the relay
  | notConnected
  | connectionClosed
  | timeout
  | rpc (error : CallError)
  | unexpectedResponse (method : String)
  | protocol (reason : String)
  | transport (reason : String)
  -- the relay's HTTP side
  | server (status : Nat) (url body : String)
  | http
  -- the device's own stores
  | store (reason : String)
  | clipboard (reason : String)
  | io
  | json
  -- settings
  | config (fault : SettingsFault)
deriving DecidableEq

def SettingsFault.message : SettingsFault → String
  | .serverUrlScheme url => "server url must be http(s) or ws(s): " ++ url
  | .serverUrlMissing => "server URL is required"
  | .credentialMissing => "either an ID token or an access token is required"

/-- The name of a kind of cause. -/
def DeviceError.name : DeviceError → String
  | .notConnected => "NotConnected"
  | .connectionClosed => "ConnectionClosed"
  | .timeout => "Timeout"
  | .rpc _ => "Rpc"
  | .unexpectedResponse _ => "UnexpectedResponse"
  | .protocol _ => "Protocol"
  | .transport _ => "Transport"
  | .server .. => "Server"
  | .http => "Http"
  | .store _ => "Store"
  | .clipboard _ => "Clipboard"
  | .io => "Io"
  | .json => "Json"
  | .config _ => "Config"

/-- The wording of a cause; what went wrong below the device's own code has none
of its own. -/
def DeviceError.message? : DeviceError → Option String
  | .notConnected => some "Not connected to the relay"
  | .connectionClosed => some "Connection closed before the call completed"
  | .timeout => some "Call timed out"
  | .rpc e => some ("Relay error: " ++ e.describe)
  | .unexpectedResponse method => some ("Unexpected response to " ++ method)
  | .protocol reason => some ("Protocol error: " ++ reason)
  | .transport reason => some ("Transport error: " ++ reason)
  | .server status url body => some s!"Server returned {status} at {url}: {body}"
  | .store reason => some ("Payload store error: " ++ reason)
  | .clipboard reason => some ("Clipboard error: " ++ reason)
  | .config fault => some ("Invalid configuration: " ++ fault.message)
  | .http | .io | .json => none

end ClipRelay
