import ClipRelay.Device.LocalChange
import ClipRelay.Device.Manifest

/-!
# ClipRelay.Device.StoreSync

Sync of texts through a store that the devices share.

The relay carries pointers only.  A local text is uploaded, its pointer is
published and then recorded in the manifest; a remote pointer is downloaded and
its text written to the clipboard.  These steps are not undone if a later one
fails: an upload stays, and a manifest that cannot be kept is given up.

The manifest is loaded once and kept by the engine from then on.
-/

namespace ClipRelay

/-- What a store answers to an upload. -/
structure StoredPayload where
  fileId : String
  sizeBytes : Int64
deriving DecidableEq

/-- A device that sends and receives pointers. -/
structure StoreSync where
  device : Uuid
  /-- The room that the device joined; its pointers carry it. -/
  roomId : String
  /-- The longest text that the device sends, in bytes of UTF-8. -/
  maxTextBytes : Nat
  guard : EchoGuard
  /-- The manifest, once it is loaded. -/
  manifest : Option Manifest := none

namespace StoreSync

/-- Where manifests are kept. -/
structure ManifestAccess (σ : Type) where
  load : String → Action σ Manifest
  save : Manifest → Action σ Unit

/-- What the engine acts on. -/
structure Surroundings (σ : Type) where
  /-- Stores a text under an object key. -/
  upload : String → String → Action σ StoredPayload
  /-- Fetches the text that is stored under a file id. -/
  download : String → Action σ String
  publish : Pointer → Action σ Unit
  writeClipboard : String → Action σ Unit
  manifests : Option (ManifestAccess σ)

variable {σ : Type}

/-- The content type of a pointer to a text. -/
def contentType : String := "text"

/-- How many items the engine keeps in the manifest. -/
def manifestSize : Nat := 10

/-- The engine of a device. -/
def ofSettings (c : DeviceSettings) (guard : EchoGuard) : StoreSync where
  device := c.deviceId
  roomId := c.roomToJoin.1
  maxTextBytes := c.maxTextBytes
  guard

/-! ## The manifest -/

/-- The manifest, loaded if it is not yet. -/
def withManifest (m : ManifestAccess σ) (e : StoreSync) (w : σ) :
    Except DeviceError Manifest × StoreSync × σ :=
  match e.manifest with
  | some manifest => (.ok manifest, e, w)
  | none =>
    match m.load e.roomId w with
    | (.error x, w) => (.error x, e, w)
    | (.ok manifest, w) => (.ok manifest, { e with manifest := some manifest }, w)

/-- The manifest entry of a text. -/
def entry (p : Pointer) (text : String) : ManifestEntry :=
  let summary := truncate summaryLength text
  .ofPointer p .text summary (some summary)

/-- Records a published text in the manifest, if there is one to be kept. -/
def recordText (s : Surroundings σ) (p : Pointer) (text : String) (e : StoreSync) (w : σ) :
    Except DeviceError Unit × StoreSync × σ :=
  match s.manifests with
  | none => (.ok (), e, w)
  | some m =>
    match e.withManifest m w with
    | (.error x, e, w) => (.error x, e, w)
    | (.ok manifest, e, w) =>
      let manifest := manifest.record manifestSize (entry p text)
      let (result, w) := m.save manifest w
      (result, { e with manifest := some manifest }, w)

/-- Whatever becomes of it, the engine is changed in its manifest only. -/
theorem exists_manifest_recordText (s : Surroundings σ) (p : Pointer) (text : String)
    (e : StoreSync) (w : σ) : ∃ manifest, (e.recordText s p text w).2.1 = { e with manifest } := by
  unfold recordText
  split
  · exact ⟨e.manifest, rfl⟩
  · next m hm =>
    cases hcached : e.manifest with
    | some cached =>
        simp only [withManifest, hcached]
        exact ⟨_, rfl⟩
    | none =>
        simp only [withManifest, hcached]
        rcases m.load e.roomId w with ⟨_ | manifest, w⟩
        · exact ⟨none, by rw [← hcached]⟩
        · exact ⟨_, rfl⟩

/-- The recent items of the room, which the relay does not know in this mode. -/
def history (s : Surroundings σ) (e : StoreSync) (w : σ) :
    Except DeviceError (List HistoryItem) × StoreSync × σ :=
  match s.manifests with
  | none => (.ok [], e, w)
  | some m =>
    match e.withManifest m w with
    | (.error x, e, w) => (.error x, e, w)
    | (.ok manifest, e, w) => (.ok manifest.toHistory, e, w)

/-! ## Local changes -/

/-- The pointer to a stored text. -/
def pointerTo (e : StoreSync) (now : Timestamp) (hash : Bytes) (stored : StoredPayload) :
    Pointer where
  roomId := e.roomId
  origin := e.device
  time := now
  objectKey := textObjectKey e.roomId now e.device hash
  providerFileId := some stored.fileId
  contentHash := hash
  sizeBytes := stored.sizeBytes
  contentType := contentType

/-- Takes in a change of the local clipboard. -/
def takeLocal (s : Surroundings σ) (now : Timestamp) (text : String) (e : StoreSync) (w : σ) :
    Except DeviceError ChangeOutcome × StoreSync × σ :=
  match e.guard.judge e.maxTextBytes now text with
  | (.error why, guard) => (.ok why, { e with guard }, w)
  | (.ok hash, guard) =>
    let e := { e with guard }
    match s.upload (textObjectKey e.roomId now e.device hash) text w with
    | (.error x, w) => (.error x, e, w)
    | (.ok stored, w) =>
      let pointer := e.pointerTo now hash stored
      match s.publish pointer w with
      | (.error x, w) => (.error x, e, w)
      | (.ok (), w) => (.ok .published, (e.recordText s pointer text w).2)

/-- A change that is let through is recorded, if its upload and its publish succeed. -/
theorem takeLocal_of_published {s : Surroundings σ} {now : Timestamp} {e : StoreSync} {w w' w'' : σ}
    {hash : Bytes} {text : String} {stored : StoredPayload}
    (hpass : (e.guard.judge e.maxTextBytes now text).1 = .ok hash)
    (hupload : s.upload (textObjectKey e.roomId now e.device hash) text w = (.ok stored, w'))
    (hpublish : s.publish (e.pointerTo now hash stored) w' = (.ok (), w'')) :
    e.takeLocal s now text w =
      (.ok .published, ({ e with guard := (e.guard.judge e.maxTextBytes now text).2 }.recordText s
        (e.pointerTo now hash stored) text w'').2) := by
  cases hjudged : e.guard.judge e.maxTextBytes now text with
  | mk verdict guard =>
      rw [hjudged] at hpass
      cases hpass
      have hpublish' : s.publish ({ e with guard }.pointerTo now hash stored) w' =
          (.ok (), w'') := hpublish
      simp only [takeLocal, hjudged, hupload, hpublish']
      rfl

/-! ## Remote pointers -/

/-- The file to fetch for a remote pointer, if it is for this device: one to a
text in its room, from another device, that says where the text is. -/
def fileToFetch? (e : StoreSync) (p : Pointer) : Option String :=
  if EchoGuard.isOwnUpdate e.device p.origin then none
  else if p.roomId ≠ e.roomId then none
  else if p.contentType.map Char.toLower ≠ contentType then none
  else Text.nonBlank? p.providerFileId

/-- Takes in a pointer from the relay, and says whether its text was written to
the clipboard.  The ignore window opens when the text is there, however long the
download took. -/
def takeRemote (s : Surroundings σ) (now : Timestamp) (p : Pointer) (e : StoreSync) (w : σ) :
    Except DeviceError Bool × StoreSync × σ :=
  match e.fileToFetch? p with
  | none => (.ok false, e, w)
  | some fileId =>
    match s.download fileId w with
    | (.error x, w) => (.error x, e, w)
    | (.ok text, w) =>
      let e := { e with guard := e.guard.noteRemoteUpdate now.toInt }
      match s.writeClipboard text w with
      | (.error x, w) => (.error x, e, w)
      | (.ok (), w) => (.ok true, e, w)

/-- Takes in an event from the relay.  Only pointers matter here, and one whose
text does not reach the clipboard is given up. -/
def takeEvent (s : Surroundings σ) (now : Timestamp) (event : Event) (e : StoreSync) (w : σ) :
    StoreSync × σ :=
  match event with
  | .pointerChanged p => (e.takeRemote s now p w).2
  | _ => (e, w)

/-- Takes in events one after the other. -/
def run (s : Surroundings σ) (now : Timestamp) (events : List Event) (e : StoreSync) (w : σ) :
    StoreSync × σ :=
  events.foldl (fun (e, w) event => e.takeEvent s now event w) (e, w)

theorem run_cons (s : Surroundings σ) (now : Timestamp) (event : Event) (events : List Event)
    (e : StoreSync) (w : σ) :
    e.run s now (event :: events) w =
      (e.takeEvent s now event w).1.run s now events (e.takeEvent s now event w).2 := rfl

end StoreSync

end ClipRelay
