import ClipRelay.Device.Failure
import ClipRelay.Http.Router
import ClipRelay.Relay.Calls
import ClipRelay.Relay.Settings

/-!
# ClipRelay.Device.Settings

The settings of a device, read from the variables of its environment, and the
addresses and credentials that follow from them.
-/

namespace ClipRelay

/-- The settings of a device. -/
structure DeviceSettings where
  serverUrl : String := "http://localhost:8080"
  roomId : String := Relay.homeRoomId
  roomSecret : String := ""
  deviceId : Uuid
  bearerToken : Option String := none
  /-- The longest text the device sends, in bytes of UTF-8. -/
  maxTextBytes : Nat := 65536
deriving DecidableEq

namespace DeviceSettings

/-- The device id in an environment, if it holds one. -/
def deviceId? (env : String → Option String) : Option Uuid :=
  ((env "CLIPSYNC_DEVICE_ID").bind fun v => Uuid.parse? (Text.trim v)).filter fun id => !id.isNil

/-- The settings in an environment, in which a variable may or may not be set;
`fresh` names a device that is given no id. -/
def ofEnv (env : String → Option String) (fresh : Uuid) : DeviceSettings :=
  let d : DeviceSettings := { deviceId := fresh }
  { serverUrl := ((Text.nonBlank? (env "CLIPSYNC_SERVER_URL")).map Text.trim).getD d.serverUrl
    roomId := (Text.nonBlank? (env "CLIPSYNC_ROOM_ID")).getD d.roomId
    roomSecret := (env "CLIPSYNC_ROOM_SECRET").getD d.roomSecret
    deviceId := (deviceId? env).getD d.deviceId
    bearerToken := (Text.nonBlank? (env "CLIPSYNC_BEARER_TOKEN")).map Text.trim
    maxTextBytes :=
      (((env "CLIPSYNC_MAX_TEXT_BYTES").bind RelaySettings.positive?).map
        (min maxTextSize)).getD d.maxTextBytes }

section
variable (env : String → Option String) (fresh : Uuid)

/-- No device sends texts that are longer than the relay takes. -/
theorem maxTextBytes_ofEnv_le : (ofEnv env fresh).maxTextBytes ≤ maxTextSize := by
  simp only [ofEnv]
  cases (env "CLIPSYNC_MAX_TEXT_BYTES").bind RelaySettings.positive? with
  | none => exact (by decide : 65536 ≤ maxTextSize)
  | some size => exact Nat.min_le_left ..

/-- A device has an id, if the one that it gets where none is set is one. -/
theorem isNil_deviceId_ofEnv (h : fresh.isNil = false) :
    (ofEnv env fresh).deviceId.isNil = false := by
  simp only [ofEnv]
  cases hset : deviceId? env with
  | none => exact h
  | some id =>
      obtain ⟨-, hid⟩ := Option.filter_eq_some_iff.mp hset
      simpa using hid

/-- A device has a room. -/
theorem isBlank_roomId_ofEnv : Text.isBlank (ofEnv env fresh).roomId = false := by
  simp only [ofEnv]
  cases hset : Text.nonBlank? (env "CLIPSYNC_ROOM_ID") with
  | none => exact (by decide : Text.isBlank Relay.homeRoomId = false)
  | some room =>
      obtain ⟨-, hroom⟩ := Option.filter_eq_some_iff.mp hset
      simpa using hroom

end

/-! ## Addresses -/

/-- A text without slashes at its end. -/
def trimSlashes (s : String) : String :=
  String.ofList (s.toList.reverse.dropWhile (· == '/')).reverse

/-- What follows a beginning of a text, if it begins so. -/
def after? (beginning s : String) : Option String :=
  if s.toList.take beginning.length = beginning.toList then
    some (String.ofList (s.toList.drop beginning.length))
  else none

/-- The server's address without white space around it and slashes at its end. -/
def base (c : DeviceSettings) : String := trimSlashes (Text.trim c.serverUrl)

/-- The server's address for WebSockets, if it has a scheme that can be used. -/
def socketBase? (c : DeviceSettings) : Option String :=
  match after? "https://" c.base, after? "http://" c.base with
  | some rest, _ => some ("wss://" ++ rest)
  | none, some rest => some ("ws://" ++ rest)
  | none, none =>
    if (after? "ws://" c.base).isSome || (after? "wss://" c.base).isSome then some c.base else none

/-- The address of the relay's WebSocket, with the bearer token if there is one. -/
def socketUrl (c : DeviceSettings) : Except DeviceError String :=
  match c.socketBase? with
  | none => .error (.config (.serverUrlScheme c.base))
  | some base =>
    .ok <| base ++ Http.socketPath ++
      match c.bearerToken with
      | some token => "?access_token=" ++ token
      | none => ""

/-- The address of the relay's HTTP side. -/
def httpUrl (c : DeviceSettings) : String :=
  match after? "wss://" c.base, after? "ws://" c.base with
  | some rest, _ => "https://" ++ rest
  | none, some rest => "http://" ++ rest
  | none, none => c.base

/-- The room and secret to join with.  An account always joins its default
room, without a secret. -/
def roomToJoin (c : DeviceSettings) : String × String :=
  if c.bearerToken.isSome then (Relay.homeRoomId, "") else (c.roomId, c.roomSecret)

theorem roomToJoin_of_account {c : DeviceSettings} (h : c.bearerToken.isSome) :
    c.roomToJoin = (Relay.homeRoomId, "") := if_pos h

/-- A device that has a room joins one that has a name. -/
theorem isBlank_roomToJoin {c : DeviceSettings} (h : Text.isBlank c.roomId = false) :
    Text.isBlank c.roomToJoin.1 = false := by
  unfold roomToJoin
  split
  · exact (by decide : Text.isBlank Relay.homeRoomId = false)
  · exact h

/-- The settings as one line for a log, without secret and token. -/
def describe (c : DeviceSettings) : String :=
  "ClientConfig \x7b server_url: " ++ Text.quoted c.serverUrl ++
  ", room_id: " ++ Text.quoted c.roomId ++
  ", room_secret_set: " ++ toString (!c.roomSecret.isEmpty) ++
  ", device_id: " ++ c.deviceId.hyphenated ++
  ", bearer_token_set: " ++ toString c.bearerToken.isSome ++
  ", max_text_bytes: " ++ toString c.maxTextBytes ++ " \x7d"

end DeviceSettings

end ClipRelay
