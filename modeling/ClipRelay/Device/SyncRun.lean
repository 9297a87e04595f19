import ClipRelay.Device.RelaySync
import ClipRelay.Device.StoreSync

/-!
# ClipRelay.Device.SyncRun

A device that syncs, either way, taking in one thing after another.

A change of its own clipboard or an event from the relay comes in at a time.
`SyncDevice.act` takes in one and says what came of it; `SyncDevice.run` takes in any
number of them.  Either engine asks the loop guard about a change in the same way, and
nothing that it does afterwards reaches the guard (`SyncDevice.takeLocal_of_error`,
`SyncDevice.takeLocal_of_ok`).
-/

namespace ClipRelay

/-- What comes in at a device. -/
inductive SyncAction where
  /-- The local clipboard changes; `itemId` names the text if it is published itself. -/
  | changed (now : Timestamp) (itemId : Uuid) (text : String)
  | received (now : Timestamp) (event : Event)

/-- What came of it. -/
inductive SyncEntry where
  | changed (now : Timestamp) (text : String) (result : Except DeviceError ChangeOutcome)
  /-- Whether a text was written to the clipboard. -/
  | received (now : Timestamp) (result : Except DeviceError Bool)

/-- A device that syncs through the relay or through a store, and what it acts on. -/
inductive SyncDevice (σ : Type) where
  | relay (around : RelaySync.Surroundings σ) (engine : RelaySync)
  | store (around : StoreSync.Surroundings σ) (engine : StoreSync)

/-- Whether a publish was tried, be it that it failed. -/
def attempted : Except DeviceError ChangeOutcome → Bool
  | .ok outcome => outcome = .published
  | .error _ => true

namespace SyncDevice

variable {σ : Type}

def guard : SyncDevice σ → EchoGuard
  | .relay _ e => e.guard
  | .store _ e => e.guard

def maxTextBytes : SyncDevice σ → Nat
  | .relay _ e => e.maxTextBytes
  | .store _ e => e.maxTextBytes

/-- Takes in a change of the local clipboard. -/
def takeLocal (now : Timestamp) (itemId : Uuid) (text : String) (d : SyncDevice σ) (w : σ) :
    Except DeviceError ChangeOutcome × SyncDevice σ × σ :=
  match d with
  | .relay around e =>
    let (result, e, w) := e.takeLocal around now itemId text w
    (result, .relay around e, w)
  | .store around e =>
    let (result, e, w) := e.takeLocal around now text w
    (result, .store around e, w)

/-- Takes in an event from the relay, and says whether a text was written to the clipboard. -/
def takeEvent (now : Timestamp) (event : Event) (d : SyncDevice σ) (w : σ) :
    Except DeviceError Bool × SyncDevice σ × σ :=
  match d, event with
  | .relay around e, .textChanged change =>
    let (result, e, w) := e.takeRemote around now change w
    (result, .relay around e, w)
  | .store around e, .pointerChanged p =>
    let (result, e, w) := e.takeRemote around now p w
    (result, .store around e, w)
  | d, _ => (.ok false, d, w)

/-- Takes in what comes. -/
def act (d : SyncDevice σ) (a : SyncAction) (w : σ) : SyncEntry × SyncDevice σ × σ :=
  match a with
  | .changed now itemId text =>
    let (result, d, w) := d.takeLocal now itemId text w
    (.changed now text result, d, w)
  | .received now event =>
    let (result, d, w) := d.takeEvent now event w
    (.received now result, d, w)

/-- Takes in one thing after another. -/
def run (d : SyncDevice σ) : List SyncAction → σ → List SyncEntry × SyncDevice σ × σ
  | [], w => ([], d, w)
  | a :: actions, w =>
    let (entry, d, w) := d.act a w
    let (entries, d, w) := d.run actions w
    (entry :: entries, d, w)

/-! ## The loop guard -/

/-- What the guard does not let through changes nothing. -/
theorem takeLocal_of_error {d : SyncDevice σ} {now : Timestamp} {text : String}
    {why : ChangeOutcome} (h : d.guard.judge d.maxTextBytes now text = (.error why, d.guard))
    (itemId : Uuid) (w : σ) : d.takeLocal now itemId text w = (.ok why, d, w) := by
  cases d with
  | relay around e =>
      have hjudged : e.guard.judge e.maxTextBytes now text = (.error why, e.guard) := h
      simp only [takeLocal, RelaySync.takeLocal, hjudged]
  | store around e =>
      have hjudged : e.guard.judge e.maxTextBytes now text = (.error why, e.guard) := h
      simp only [takeLocal, StoreSync.takeLocal, hjudged]

/-- What the guard lets through is tried, and however that ends, the guard stays as it was
left by its own decision. -/
theorem takeLocal_of_ok {d : SyncDevice σ} {now : Timestamp} {text : String} {hash : Bytes}
    {guard : EchoGuard} (h : d.guard.judge d.maxTextBytes now text = (.ok hash, guard))
    (itemId : Uuid) (w : σ) :
    attempted (d.takeLocal now itemId text w).1 ∧
      (d.takeLocal now itemId text w).2.1.guard = guard ∧
      (d.takeLocal now itemId text w).2.1.maxTextBytes = d.maxTextBytes := by
  cases d with
  | relay around e =>
      have hjudged : e.guard.judge e.maxTextBytes now text = (.ok hash, guard) := h
      simp only [takeLocal, RelaySync.takeLocal, hjudged]
      rcases around.publish ⟨e.device, itemId, now, text, hash⟩ w with ⟨_ | _, _⟩ <;>
        exact ⟨rfl, rfl, rfl⟩
  | store around e =>
      have hjudged : e.guard.judge e.maxTextBytes now text = (.ok hash, guard) := h
      simp only [takeLocal, StoreSync.takeLocal, hjudged]
      rcases around.upload (textObjectKey e.roomId now e.device hash) text w with ⟨_ | stored, w'⟩
      · exact ⟨rfl, rfl, rfl⟩
      · rcases hpublish : around.publish ({ e with guard }.pointerTo now hash stored) w' with
          ⟨_ | _, w''⟩ <;> simp only [hpublish]
        · exact ⟨rfl, rfl, rfl⟩
        · obtain ⟨manifest, hrecorded⟩ := StoreSync.exists_manifest_recordText around
            ({ e with guard }.pointerTo now hash stored) text { e with guard } w''
          exact ⟨rfl, (congrArg StoreSync.guard hrecorded).trans rfl,
            (congrArg StoreSync.maxTextBytes hrecorded).trans rfl⟩

/-- An event from the relay can open the ignore window, and changes nothing else of the guard. -/
theorem guard_takeEvent (d : SyncDevice σ) (now : Timestamp) (event : Event) (w : σ) :
    (∃ ignoreUntil, (d.takeEvent now event w).2.1.guard = { d.guard with ignoreUntil }) ∧
      (d.takeEvent now event w).2.1.maxTextBytes = d.maxTextBytes := by
  cases d with
  | relay around e =>
      cases event with
      | textChanged change =>
          simp only [takeEvent, RelaySync.takeRemote]
          split
          · exact ⟨⟨e.guard.ignoreUntil, rfl⟩, rfl⟩
          · rcases around.writeClipboard change.text w with ⟨_ | _, _⟩ <;> exact ⟨⟨_, rfl⟩, rfl⟩
      | _ => exact ⟨⟨e.guard.ignoreUntil, rfl⟩, rfl⟩
  | store around e =>
      cases event with
      | pointerChanged p =>
          simp only [takeEvent, StoreSync.takeRemote]
          cases e.fileToFetch? p with
          | none => exact ⟨⟨e.guard.ignoreUntil, rfl⟩, rfl⟩
          | some fileId =>
              dsimp only
              rcases around.download fileId w with ⟨_ | text, w'⟩
              · exact ⟨⟨e.guard.ignoreUntil, rfl⟩, rfl⟩
              · dsimp only
                rcases around.writeClipboard text w' with ⟨_ | _, _⟩ <;> exact ⟨⟨_, rfl⟩, rfl⟩
      | _ => exact ⟨⟨e.guard.ignoreUntil, rfl⟩, rfl⟩

end SyncDevice

end ClipRelay
