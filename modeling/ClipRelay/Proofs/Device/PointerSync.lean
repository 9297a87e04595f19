import ClipRelay.Device.StoreSync
import ClipRelay.Proofs.Device.AtRelay

/-!
# ClipRelay.Proofs.Device.PointerSync

Sync through a store, from the clipboard of one device to that of another.

A pointer is put together from the room that its device joined, from the hash of the text
and from what the store answers.  Nothing that the relay checks is ever wrong with it
(`pointerFault?_pointerTo`), and whoever joined the same room fetches what it points to
(`fileToFetch?_pointerTo`).
-/

namespace ClipRelay

/-- A store of texts that devices share. -/
structure SharedStore (τ : Type) where
  /-- Stores a text under an object key. -/
  upload : String → String → Action τ StoredPayload
  /-- Fetches the text that is stored under a file id. -/
  download : String → Action τ String

/-- A store takes every text that is not too long for the relay, under a file id that is not
blank and with a size that is not negative, and gives it back under that id. -/
def SharedStore.Keeps {τ : Type} (store : SharedStore τ) : Prop :=
  ∀ objectKey text w, Text.isBlank objectKey = false → text.utf8ByteSize ≤ maxTextSize →
    ∃ stored w', store.upload objectKey text w = (.ok stored, w') ∧
      Text.isBlank stored.fileId = false ∧ 0 ≤ stored.sizeBytes ∧
      (store.download stored.fileId w').1 = .ok text

/-- A store in memory, where the object key of a text is its file id. -/
def SharedStore.inMemory : SharedStore (Table String String) where
  upload objectKey text files :=
    (.ok ⟨objectKey, .ofNat text.utf8ByteSize⟩, files.insert objectKey text)
  download fileId files :=
    match files.get? fileId with
    | some text => (.ok text, files)
    | none => (.error (.store fileId), files)

theorem SharedStore.keeps_inMemory : inMemory.Keeps := by
  intro objectKey text files hkey hsize
  have hfits : text.utf8ByteSize < 2 ^ 63 := Nat.lt_of_le_of_lt hsize (by decide)
  refine ⟨_, _, rfl, hkey, ?_, ?_⟩
  · rw [Int64.le_iff_toInt_le, Int64.toInt_ofNat_of_lt hfits]
    exact Int.natCast_nonneg _
  · simp only [inMemory, Table.get?_insert_self]

namespace StoreSync

open Relay

/-- The surroundings of a device that has a session at a relay, a store and manifests that
it shares with other devices, and a clipboard. -/
def atRelay {τ μ ω : Type} (serverNow : Timestamp) (id : SessionId) (store : SharedStore τ)
    (manifests : Option (ManifestAccess μ)) (writeClipboard : String → Action ω Unit) :
    Surroundings (Relay × τ × μ × ω) where
  upload objectKey text := (store.upload objectKey text).onFirst.onSecond
  download fileId := (store.download fileId).onFirst.onSecond
  publish p w :=
    let (result, w) := (throughSession serverNow id (.publishPointer p)).onFirst w
    (result.map fun _ => (), w)
  writeClipboard text := (writeClipboard text).onSecond.onSecond.onSecond
  manifests := manifests.map fun m =>
    { load := fun room => (m.load room).onFirst.onSecond.onSecond
      save := fun manifest => (m.save manifest).onFirst.onSecond.onSecond }

/-! ## Pointers -/

section
variable {e : StoreSync} {now : Timestamp} {stored : StoredPayload}

theorem isBlank_textObjectKey (roomId : String) (time : Timestamp) (device : Uuid)
    (hash : Bytes) : Text.isBlank (textObjectKey roomId time device hash) = false := by
  have hslash : Text.isSpace '/' = false := by decide
  simp [Text.isBlank, textObjectKey, hslash]

/-- Nothing is wrong with the pointer of a device that has an id, to a text that was stored. -/
theorem pointerFault?_pointerTo (hdevice : e.device.isNil = false) (hnow : 0 < now)
    (hsize : 0 ≤ stored.sizeBytes) (text : String) :
    pointerFault? (e.pointerTo now (textHash text) stored) = none := by
  have htype : Text.isBlank contentType = false := by decide
  have hhash : (textHash text).length = Sha256.size := length_textHash text
  simp only [pointerFault?, pointerTo, hdevice, Int64.not_le.mpr hnow, isBlank_textObjectKey,
    hhash, Int64.not_lt.mpr hsize, htype, ne_eq, not_true_eq_false, Bool.false_eq_true, if_false]

/-- Another device in the room fetches what a pointer points to. -/
theorem fileToFetch?_pointerTo {e' : StoreSync} (hforeign : e'.device ≠ e.device)
    (hroom : e'.roomId = e.roomId) (hfile : Text.isBlank stored.fileId = false) (hash : Bytes) :
    e'.fileToFetch? (e.pointerTo now hash stored) = some stored.fileId := by
  have hother : EchoGuard.isOwnUpdate e'.device e.device = false := decide_eq_false hforeign
  have htext : contentType.map Char.toLower = contentType := by
    rw [← String.toList_inj, String.toList_map]
    decide
  simp only [fileToFetch?, pointerTo, hother, hroom, htext, Text.nonBlank?, Option.filter, hfile,
    ne_eq, not_true_eq_false, Bool.false_eq_true, Bool.not_false, if_false, if_true]

end

/-! ## Runs -/

section
variable {σ : Type} {s : Surroundings σ} {now : Timestamp} {e : StoreSync} {w : σ}

/-- An event that brings no pointer of another device changes nothing. -/
theorem run_of_own {events : List Event}
    (h : ∀ p, .pointerChanged p ∈ events → p.origin = e.device) :
    e.run s now events w = (e, w) := by
  refine List.foldlRecOn (motive := fun after => after = (e, w)) events _ rfl ?_
  rintro _ rfl event hevent
  cases event with
  | pointerChanged p =>
      have hown := h p hevent
      simp only [takeEvent, takeRemote, fileToFetch?, EchoGuard.isOwnUpdate, hown, decide_true,
        if_true]
  | _ => rfl

/-- A text that another device points to is fetched and written to the clipboard. -/
theorem run_of_foreign {p : Pointer} {more : List Event} {fileId text : String} {w' : σ}
    (hfetch : e.fileToFetch? p = some fileId) (hdownload : s.download fileId w = (.ok text, w'))
    (hmore : ∀ p, .pointerChanged p ∉ more) :
    e.run s now (.pointerChanged p :: more) w =
      ({ e with guard := e.guard.noteRemoteUpdate now.toInt }, (s.writeClipboard text w').2) := by
  have hfirst : e.takeEvent s now (.pointerChanged p) w =
      ({ e with guard := e.guard.noteRemoteUpdate now.toInt }, (s.writeClipboard text w').2) := by
    simp only [takeEvent, takeRemote, hfetch, hdownload]
    rcases s.writeClipboard text w' with ⟨_ | _, _⟩ <;> rfl
  rw [run_cons, hfirst]
  exact run_of_own fun p hp => absurd hp (hmore p)

end

section
variable {τ μ ω : Type} (serverNow : Timestamp) (id : SessionId) (store : SharedStore τ)
  (manifests : Option (ManifestAccess μ)) (writeClipboard : String → Action ω Unit)

/-- To record a text changes the manifest only, the one that is kept and the one in memory. -/
theorem recordText_atRelay (p : Pointer) (text : String) (e : StoreSync) (r : Relay) (kept : τ)
    (m : μ) (clip : ω) :
    ∃ manifest m', (e.recordText (atRelay serverNow id store manifests writeClipboard) p text
      (r, kept, m, clip)).2 = ({ e with manifest }, r, kept, m', clip) := by
  cases manifests with
  | none => exact ⟨e.manifest, m, rfl⟩
  | some access =>
      cases hcached : e.manifest with
      | some cached =>
          simp only [recordText, atRelay, Option.map_some, withManifest, hcached]
          exact ⟨_, _, rfl⟩
      | none =>
          simp only [recordText, atRelay, Option.map_some, withManifest, hcached, Action.onFirst,
            Action.onSecond]
          rcases access.load e.roomId m with ⟨_ | manifest, m'⟩
          · exact ⟨none, m', by rw [← hcached]⟩
          · exact ⟨_, _, rfl⟩

/-- A text that is let through is stored and its pointer published, if the relay takes it. -/
theorem takeLocal_atRelay {e : StoreSync} {r : Relay} (hmax : r.files.maxSize = maxFileSize)
    {now : Timestamp} {hash : Bytes} {text : String} {stored : StoredPayload} {kept kept' : τ}
    {key : RoomKey} {p : Publication}
    (hpass : (e.guard.judge e.maxTextBytes now text).1 = .ok hash)
    (hupload : store.upload (textObjectKey e.roomId now e.device hash) text kept =
      (.ok stored, kept'))
    (hpublished : r.published? (.call serverNow id (.publishPointer (e.pointerTo now hash stored)))
      = some (key, p)) (m : μ) (clip : ω) :
    ∃ guard manifest m',
      e.takeLocal (atRelay serverNow id store manifests writeClipboard) now text (r, kept, m, clip)
        = (.ok .published, { e with guard, manifest },
          (p.store r key).broadcastAll key p.news, kept', m', clip) := by
  have hstore : (atRelay serverNow id store manifests writeClipboard).upload
      (textObjectKey e.roomId now e.device hash) text (r, kept, m, clip) =
        (.ok stored, r, kept', m, clip) := by
    simp only [atRelay, Action.onFirst, Action.onSecond, hupload]
  have hpublish : (atRelay serverNow id store manifests writeClipboard).publish
      (e.pointerTo now hash stored) (r, kept', m, clip) =
        (.ok (), (p.store r key).broadcastAll key p.news, kept', m, clip) := by
    simp only [atRelay, Action.onFirst, throughSession_of_published hmax hpublished]
    rfl
  obtain ⟨manifest, m', hrecord⟩ := recordText_atRelay serverNow id store manifests writeClipboard
    (e.pointerTo now hash stored) text
    { e with guard := (e.guard.judge e.maxTextBytes now text).2 }
    ((p.store r key).broadcastAll key p.news) kept' m clip
  rw [takeLocal_of_published hpass hstore hpublish, hrecord]
  exact ⟨_, _, _, rfl⟩

end

/-- **Sync through a store, end to end**: let two devices with different ids share a room of a
relay, a store that keeps what it is given and its manifests, and let the queue of the second
have room.  Whatever text passes the guard of the first, it is stored, the relay accepts the
pointer to it as it is, and the device is told so.  What either is sent of that changes
nothing for the first, and the second fetches the text and writes it to its clipboard, once.
And a pointer whose fields are not too long for the wire goes over it unharmed. -/
theorem pointer_reaches_device {account : AccountSettings} {capacity : Nat} {r : Relay}
    (envA envB : String → Option String) {freshA freshB : Uuid} (hfresh : freshA.isNil = false)
    (hdevices : (DeviceSettings.ofEnv envA freshA).deviceId ≠
      (DeviceSettings.ofEnv envB freshB).deviceId)
    {idA idB : SessionId} (hjoinedA : r.JoinedBy account capacity (.ofEnv envA freshA) idA)
    (hjoinedB : r.JoinedBy account capacity (.ofEnv envB freshB) idB)
    (htogether : r.Together account (.ofEnv envA freshA) (.ofEnv envB freshB) idA idB)
    (hfree : ∃ q, r.queueOf idB = some q ∧ q.hasRoom)
    {τ μ ωA ωB : Type} {store : SharedStore τ} (hkeeps : store.Keeps)
    (manifestsA manifestsB : Option (ManifestAccess μ)) (guardA guardB : EchoGuard)
    (cachedA cachedB : Option Manifest) {nowA : Timestamp} (hnow : 0 < nowA) (text : String)
    {hash : Bytes}
    (hpass : (guardA.judge (DeviceSettings.ofEnv envA freshA).maxTextBytes nowA text).1 = .ok hash)
    (writeA : String → Action ωA Unit) (writeB : String → Action ωB Unit) (kept : τ) (m : μ)
    (clipA : ωA) (clipB : ωB) (serverNow : Timestamp) :
    let a := { ofSettings (.ofEnv envA freshA) guardA with manifest := cachedA }
    let b := { ofSettings (.ofEnv envB freshB) guardB with manifest := cachedB }
    let aroundA := atRelay serverNow idA store manifestsA writeA
    let aroundB := atRelay serverNow idB store manifestsB writeB
    ∃ a' r' kept' m' room stored,
      a.takeLocal aroundA nowA text (r, kept, m, clipA) =
        (.ok .published, a', r', kept', m', clipA) ∧
      (∀ now, a'.run aroundA now (r.eventsSince r' idA) (r', kept', m', clipA) =
        (a', r', kept', m', clipA)) ∧
      r.bindingOf? idA = some room ∧ r.roomOf? idB = some room.key ∧
      store.upload (textObjectKey a.roomId nowA a.device hash) text kept = (.ok stored, kept') ∧
      let pointer := a.pointerTo nowA hash stored
      r'.pointers.get? room.key = some pointer ∧ pointer.roomId = room.roomId ∧
      pointer.contentHash.length = Sha256.size ∧ 0 < pointer.time ∧
      (∀ now, (b.run aroundB now (r.eventsSince r' idB) (r', kept', m', clipB)).2 =
        (r', (store.download stored.fileId kept').2, m', (writeB text clipB).2)) ∧
      (pointer.Fits →
        (∀ callId, Binary.decode .clientFrame (Binary.encode .clientFrame
          ⟨callId, .publishPointer pointer⟩) = .ok ⟨callId, .publishPointer pointer⟩) ∧
        Binary.decode .serverFrame (Binary.encode .serverFrame (.event (.pointerChanged pointer))) =
          .ok (.event (.pointerChanged pointer))) := by
  intro a b aroundA aroundB
  obtain ⟨hlength, rfl⟩ := EchoGuard.judge_eq_ok hpass
  obtain ⟨hsame, room, hbound, hname, -, hroomB⟩ := htogether.exists_room hjoinedA hjoinedB
    (DeviceSettings.isBlank_roomId_ofEnv envA freshA)
  obtain ⟨h, -⟩ := hjoinedA.exists_binding
  obtain ⟨stored, kept', hupload, hfile, hsize, hdownload⟩ :=
    hkeeps (textObjectKey a.roomId nowA a.device (textHash text)) text kept
      (isBlank_textObjectKey ..)
      (Nat.le_trans hlength (DeviceSettings.maxTextBytes_ofEnv_le envA freshA))
  have hdevice : a.device.isNil = false := DeviceSettings.isNil_deviceId_ofEnv envA freshA hfresh
  have hpublished : r.published? (.call serverNow idA
      (.publishPointer (a.pointerTo nowA (textHash text) stored))) =
      some (room.key, .pointer (a.pointerTo nowA (textHash text) stored)) :=
    published?_pointer hbound serverNow hname.symm
      (pointerFault?_pointerTo hdevice hnow hsize text)
  have hnews : (Publication.pointer (a.pointerTo nowA (textHash text) stored)).news =
      [.pointerChanged (a.pointerTo nowA (textHash text) stored)] := rfl
  obtain ⟨guard, manifest, m', htaken⟩ := takeLocal_atRelay serverNow idA store manifestsA writeA
    h.sameSettings.maxSize hpass hupload hpublished m clipA
  refine ⟨_, _, kept', m', room, stored, htaken, fun now => ?_, hbound, hroomB, hupload, ?_,
    hname.symm, length_textHash text, hnow, fun now => ?_, fun hfits => ⟨fun callId => ?_, ?_⟩⟩
  · refine run_of_own fun p hp => ?_
    have hmem := h.sound.mem_news_of_eventsSince hp
    cases List.mem_singleton.mp (hnews ▸ hmem)
    rfl
  · rw [(sameStores_broadcastAll _ _ _).pointers]
    exact Table.get?_insert_self ..
  · obtain ⟨more, hmore, hrest⟩ := h.sound.eventsSince_of_hears ⟨hroomB, hfree⟩ hnews
    have hfetch : b.fileToFetch? (a.pointerTo nowA (textHash text) stored) =
        some stored.fileId := fileToFetch?_pointerTo hdevices.symm hsame hfile (textHash text)
    have hnopointer : ∀ p, .pointerChanged p ∉ more := fun p hp => nomatch hrest _ hp
    have hfetched : ∀ r', aroundB.download stored.fileId (r', kept', m', clipB) =
        (.ok text, r', (store.download stored.fileId kept').2, m', clipB) := by
      intro r'
      simp only [aroundB, atRelay, Action.onFirst, Action.onSecond, hdownload]
    rw [hmore, run_of_foreign hfetch (hfetched _) hnopointer]
    rfl
  · exact Binary.decode_encode hfits
  · exact Binary.decode_encode hfits

/-- A note that is copied on one device of an account is pasted on another one, from the file
that it is kept in. -/
theorem pointer_reaches_device_home :
    let signedIn : String → Option String := fun name =>
      if name = "CLIPSYNC_BEARER_TOKEN" then some "token" else none
    let r := (empty { enabled := true } 10).run
      [.connect (some ⟨"user-1", none⟩) 8, .connect (some ⟨"user-1", none⟩) 8,
        .call 1 0 (.joinRoom "default" ""), .call 1 1 (.joinRoom "default" "")]
    let paste (text : String) : Action (List String) Unit := fun pasted => (.ok (), text :: pasted)
    let a := ofSettings (.ofEnv signedIn note.deviceId) {}
    let b := ofSettings (.ofEnv signedIn note.clientItemId) {}
    let around (id : SessionId) : Surroundings (Relay × Table String String × Unit × List String) :=
      atRelay 2 id .inMemory none paste
    let sent := a.takeLocal (around 0) 1 note.text (r, ∅, (), [])
    sent.1 = .ok .published ∧ sent.2.2.2.2.2 = [] ∧
      (b.run (around 1) 3 (r.eventsSince sent.2.2.1 1) (sent.2.2.1, sent.2.2.2.1, (), [])).2.2.2.2 =
        [note.text] := by
  intro signedIn r paste a b around sent
  have hfresh : note.deviceId.isNil = false := by decide
  have hdevices : a.device ≠ b.device := by decide
  have hjoinedA : r.JoinedBy { enabled := true } 10 (.ofEnv signedIn note.deviceId) 0 :=
    ⟨⟨(empty { enabled := true } 10).run
        [.connect (some ⟨"user-1", none⟩) 8, .connect (some ⟨"user-1", none⟩) 8],
      1, [.call 1 1 (.joinRoom "default" "")], .run .empty _, rfl, rfl⟩, rfl⟩
  have hjoinedB : r.JoinedBy { enabled := true } 10 (.ofEnv signedIn note.clientItemId) 1 :=
    ⟨⟨(empty { enabled := true } 10).run
        [.connect (some ⟨"user-1", none⟩) 8, .connect (some ⟨"user-1", none⟩) 8,
          .call 1 0 (.joinRoom "default" "")],
      1, [], .run .empty _, rfl, rfl⟩, rfl⟩
  have htogether : r.Together { enabled := true } (.ofEnv signedIn note.deviceId)
      (.ofEnv signedIn note.clientItemId) 0 1 := .account rfl rfl rfl rfl
  have hfree : ∃ q, r.queueOf 1 = some q ∧ q.hasRoom := ⟨_, rfl, rfl⟩
  have hnow : (0 : Timestamp) < 1 := by decide
  have hpass : (a.guard.judge a.maxTextBytes 1 note.text).1 = .ok (textHash note.text) := rfl
  obtain ⟨a', r', kept', m', room, stored, hsent, -, -, -, -, -, -, -, -, hrun, -⟩ :=
    pointer_reaches_device signedIn signedIn hfresh hdevices hjoinedA hjoinedB htogether hfree
      SharedStore.keeps_inMemory none none {} {} none none hnow note.text hpass paste paste ∅ () []
      [] 2
  have hafter : sent = (.ok .published, a', r', kept', m', []) := hsent
  rw [hafter]
  exact ⟨rfl, rfl, congrArg (fun w => w.2.2.2) (hrun 3)⟩

end StoreSync

end ClipRelay
