import ClipRelay.Device.LocalChange

/-!
# ClipRelay.Device.RelaySync

Sync of texts through the relay itself.

The engine is a value, and what it does to the relay and to the clipboard goes
through `RelaySync.Surroundings`.  So a step is a function of the engine and the
surroundings, and two engines with their surroundings can be put side by side.
-/

namespace ClipRelay

/-- A device that sends and receives texts. -/
structure RelaySync where
  device : Uuid
  /-- The longest text that the device sends, in bytes of UTF-8. -/
  maxTextBytes : Nat
  guard : EchoGuard

namespace RelaySync

/-- What the engine acts on. -/
structure Surroundings (σ : Type) where
  publish : TextPublish → Action σ Unit
  writeClipboard : String → Action σ Unit

variable {σ : Type}

/-- The engine of a device. -/
def ofSettings (c : DeviceSettings) (guard : EchoGuard) : RelaySync where
  device := c.deviceId
  maxTextBytes := c.maxTextBytes
  guard

/-- Takes in a change of the local clipboard; `itemId` names it if it is
published. -/
def takeLocal (s : Surroundings σ) (now : Timestamp) (itemId : Uuid) (text : String)
    (e : RelaySync) (w : σ) : Except DeviceError ChangeOutcome × RelaySync × σ :=
  match e.guard.judge e.maxTextBytes now text with
  | (.error why, guard) => (.ok why, { e with guard }, w)
  | (.ok hash, guard) =>
    let e := { e with guard }
    match s.publish ⟨e.device, itemId, now, text, hash⟩ w with
    | (.error x, w) => (.error x, e, w)
    | (.ok (), w) => (.ok .published, e, w)

/-- Takes in a text from the relay, and says whether it was written to the
clipboard: the device's own texts are not. -/
def takeRemote (s : Surroundings σ) (now : Timestamp) (change : TextChange)
    (e : RelaySync) (w : σ) : Except DeviceError Bool × RelaySync × σ :=
  if EchoGuard.isOwnUpdate e.device change.origin then (.ok false, e, w)
  else
    let e := { e with guard := e.guard.noteRemoteUpdate now.toInt }
    match s.writeClipboard change.text w with
    | (.error x, w) => (.error x, e, w)
    | (.ok (), w) => (.ok true, e, w)

/-- Takes in an event from the relay.  Only texts matter here, and one that
cannot be written to the clipboard is given up. -/
def takeEvent (s : Surroundings σ) (now : Timestamp) (event : Event) (e : RelaySync) (w : σ) :
    RelaySync × σ :=
  match event with
  | .textChanged change => (e.takeRemote s now change w).2
  | _ => (e, w)

/-- Takes in events one after the other. -/
def run (s : Surroundings σ) (now : Timestamp) (events : List Event) (e : RelaySync) (w : σ) :
    RelaySync × σ :=
  events.foldl (fun (e, w) event => e.takeEvent s now event w) (e, w)

theorem run_cons (s : Surroundings σ) (now : Timestamp) (event : Event) (events : List Event)
    (e : RelaySync) (w : σ) :
    e.run s now (event :: events) w =
      (e.takeEvent s now event w).1.run s now events (e.takeEvent s now event w).2 := rfl

end RelaySync

end ClipRelay
