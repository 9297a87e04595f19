import ClipRelay.Relay.Basic

/-!
# ClipRelay.Relay.Calls

The calls that a session makes on the relay.

`Relay.perform` takes a call at a time and gives its answer and the relay
afterwards.  Each call but `JoinRoom` first decides whether it is accepted,
without touching the relay (`acceptText`, `acceptPointer`, `acceptFile`), and
then takes effect as a whole.
-/

namespace ClipRelay.Relay

/-- The result of a call and the relay after it. -/
abbrev Result (α : Type) := Except Refusal α × Relay

/-! ## Joining -/

/-- The room id that stands for a blank one in account mode. -/
def homeRoomId : String := "default"

/-- The room that a caller may enter with a room id and a secret, and the
secrets afterwards.  In account mode it is one of the account's own rooms, and
the secret does not matter; otherwise the secrets decides. -/
def grant (r : Relay) (s : Session) (roomId secret : String) :
    Except Refusal Binding × RoomSecrets :=
  if r.account.enabled then
    match s.principal with
    | none => (.error .authenticationRequired, r.secrets)
    | some p =>
      let roomId := if Text.isBlank roomId then homeRoomId else roomId
      (.ok ⟨roomId, .forSubject p.subject roomId⟩, r.secrets)
  else
    match r.secrets.enter roomId secret with
    | (true, secrets) => (.ok ⟨roomId, .shared roomId⟩, secrets)
    | (false, secrets) => (.error .invalidRoomCredentials, secrets)

/-- Sends a session the latest pointer and the latest text of a room. -/
def converge (r : Relay) (s : Session) (key : RoomKey) : Relay :=
  let r := match r.pointers.get? key with
    | some p => r.push s (.pointerChanged p)
    | none => r
  match r.texts.get? key with
  | some t => r.push s (.textChanged t)
  | none => r

/-- Makes a session a member of the room it is bound to and brings it up to
date; a session that has ended meanwhile is taken out again at once. -/
def enter (r : Relay) (id : SessionId) (s : Session) (key : RoomKey) : Relay :=
  let r := { r with groups := r.groups.join key id s.outbound }
  if s.closed then { r with groups := r.groups.leave key id } else r.converge s key

/-- Binds a session to a room.  Joining the same room again only repeats what a
session is sent on joining; any other room is refused. -/
def join (r : Relay) (id : SessionId) (s : Session) (roomId secret : String) : Result Unit :=
  match r.grant s roomId secret with
  | (.error e, secrets) => (.error e, { r with secrets })
  | (.ok wanted, secrets) =>
    let r := { r with secrets }
    match s.binding with
    | some b =>
      if b.key = wanted.key then (.ok (), r.enter id s b.key) else (.error .joinedElsewhere, r)
    | none =>
      let s := { s with binding := some wanted }
      (.ok (), { r with sessions := r.sessions.insert id s }.enter id s wanted.key)

/-! ## Publishing -/

/-- The hash that a published text goes under: the one that its device claims if that
has the right length and is the hash of the content, or else the latter. -/
def hashToKeep (p : TextPublish) : Bytes :=
  let computed := textHash p.text
  if p.textHash.length = Sha256.size ∧ hashEquals p.textHash computed then p.textHash
  else computed

/-- Whatever a device claims, a text goes under the hash of its content. -/
@[simp] theorem hashToKeep_eq (p : TextPublish) : hashToKeep p = textHash p.text := by
  simp only [hashToKeep]
  split
  · next hclaimed => exact hashEquals_iff.mp hclaimed.2
  · rfl

/-- The text that a room's clipboard holds after a publish, if it is accepted. -/
def acceptText (now : Timestamp) (p : TextPublish) : Except Refusal TextChange :=
  if p.deviceId.isNil then .error .deviceIdMissing
  else if p.clientItemId.isNil then .error .clientItemIdMissing
  else if maxTextSize < p.text.utf8ByteSize then .error .textTooLong
  else .ok ⟨p.deviceId, now, p.text, hashToKeep p⟩

/-- The content type of texts. -/
def plainText : String := "text/plain"

/-- The history item of a text. -/
def textItem (roomId : String) (c : TextChange) : HistoryItem :=
  let summary := truncate summaryLength c.text
  { id := contentId c.serverTime c.origin c.textHash
    roomId
    kind := .text
    origin := c.origin
    time := c.serverTime
    title := summary
    preview := some summary
    sizeBytes := Int64.ofNat c.text.utf8ByteSize
    contentHash := c.textHash
    contentType := plainText
    providerFileId := none
    objectKey := none }

def publishText (r : Relay) (b : Binding) (now : Timestamp) (p : TextPublish) : Result Unit :=
  match acceptText now p with
  | .error e => (.error e, r)
  | .ok change =>
    let item := textItem b.roomId change
    let r := { r with
      texts := r.texts.insert b.key change
      histories := r.histories.append b.key item (some change.text) }
    (.ok (), (r.broadcast b.key (.textChanged change)).broadcast b.key (.historyItemAdded item))

/-- What is wrong with a pointer, looking at its fields in order. -/
def pointerFault? (p : Pointer) : Option PointerFault :=
  if p.origin.isNil then some .originMissing
  else if p.time ≤ 0 then some .timeNotPositive
  else if Text.isBlank p.objectKey then some .objectKeyMissing
  else if p.contentHash.length ≠ Sha256.size then some .hashLength
  else if p.sizeBytes < 0 then some .sizeNegative
  else if Text.isBlank p.contentType then some .contentTypeMissing
  else none

/-- The pointer that a room's clipboard holds after a publish, if it is
accepted.  A pointer to another room is refused; in account mode, where the key
already keeps rooms apart, it is taken for one to the room joined. -/
def acceptPointer (account : AccountSettings) (b : Binding) (p : Pointer) :
    Except Refusal Pointer :=
  if p.roomId ≠ b.roomId ∧ !account.enabled then .error .pointerRoomMismatch
  else
    let p := { p with roomId := b.roomId }
    match pointerFault? p with
    | some fault => .error (.pointer fault)
    | none => .ok p

def publishPointer (r : Relay) (b : Binding) (p : Pointer) : Result Unit :=
  match acceptPointer r.account b p with
  | .error e => (.error e, r)
  | .ok p =>
    let r := { r with pointers := r.pointers.insert b.key p }
    (.ok (), r.broadcast b.key (.pointerChanged p))

/-- The name of a file that has none. -/
def unnamedFile : String := "file.bin"

/-- The content type of a file that has none. -/
def unknownContentType : String := "application/octet-stream"

/-- A text, or another in place of a blank one. -/
def orDefault (s default : String) : String := if Text.isBlank s then default else s

/-- The history item of a file, if its publish is accepted. -/
def acceptFile (roomId : String) (now : Timestamp) (p : FilePublish) : Except Refusal HistoryItem :=
  if p.deviceId.isNil then .error .deviceIdMissing
  else if p.bytes.isEmpty then .error .bytesMissing
  else if maxFileSize < p.bytes.length then .error .fileTooLong
  else
    let hash := Sha256.digest p.bytes
    .ok
      { id := contentId now p.deviceId hash
        roomId
        kind := .file
        origin := p.deviceId
        time := now
        title := orDefault p.fileName unnamedFile
        preview := none
        sizeBytes := Int64.ofNat p.bytes.length
        contentHash := hash
        contentType := orDefault p.contentType unknownContentType
        providerFileId := none
        objectKey := none }

/-- A file that is accepted has bytes, no more of them than a file may have, and
becomes a file item. -/
theorem of_acceptFile {roomId : String} {now : Timestamp} {p : FilePublish} {item : HistoryItem}
    (h : acceptFile roomId now p = .ok item) :
    p.bytes.isEmpty = false ∧ p.bytes.length ≤ maxFileSize ∧ item.kind = .file := by
  unfold acceptFile at h
  split at h
  · contradiction
  · split at h
    · contradiction
    · rename_i hbytes
      split at h
      · contradiction
      · rename_i hsize
        rw [← Except.ok.inj h]
        exact ⟨Bool.eq_false_iff.mpr hbytes, Nat.le_of_not_lt hsize, rfl⟩

def publishFile (r : Relay) (b : Binding) (now : Timestamp) (p : FilePublish) : Result Unit :=
  match acceptFile b.roomId now p with
  | .error e => (.error e, r)
  | .ok item =>
    match r.files.put b.key item.id p.bytes with
    | .error e => (.error (.notStored e), r)
    | .ok files =>
      let r := { r with files, histories := r.histories.append b.key item none }
      (.ok (), r.broadcast b.key (.historyItemAdded item))

/-! ## Reading -/

def recentItems (r : Relay) (b : Binding) (limit : Int32) : HistoryList :=
  ⟨b.roomId, r.histories.recent b.key limit⟩

def itemText (r : Relay) (b : Binding) (itemId : String) : Except Refusal HistoryText :=
  if Text.isBlank itemId then .error .itemIdMissing
  else match r.histories.text? b.key itemId with
    | some text => .ok ⟨itemId, text⟩
    | none => .error (.itemNotFound itemId)

/-! ## All calls -/

/-- The answer to a call that gives nothing back. -/
def answering (r : Response) (result : Result Unit) : Result Response :=
  (result.1.map fun _ => r, result.2)

theorem answering_eq_error_iff {r : Response} {result : Result Unit} {e : Refusal} :
    (answering r result).1 = .error e ↔ result.1 = .error e := by
  obtain ⟨answer, after⟩ := result
  cases answer <;> simp [answering, Except.map]

/-- Makes a call on behalf of a session.  All but `JoinRoom` need a session that
is bound to a room. -/
def perform (r : Relay) (now : Timestamp) (id : SessionId) (request : Request) : Result Response :=
  match r.sessions.get? id with
  | none => (.error .notJoined, r)
  | some s =>
    match request, s.binding with
    | .joinRoom roomId secret, _ => answering .joined (r.join id s roomId secret)
    | _, none => (.error .notJoined, r)
    | .publishText p, some b => answering .published (r.publishText b now p)
    | .publishPointer p, some b => answering .published (r.publishPointer b p)
    | .publishFile p, some b => answering .published (r.publishFile b now p)
    | .getHistory limit, some b => (.ok (.history (r.recentItems b limit)), r)
    | .getHistoryText itemId, some b => ((r.itemText b itemId).map .historyText, r)

theorem perform_of_absent {r : Relay} {id : SessionId} (h : r.sessions.get? id = none)
    (now : Timestamp) (request : Request) :
    r.perform now id request = (.error .notJoined, r) := by
  simp only [perform, h]

/-- What holds of each call of a session, taken by itself, holds of all its calls. -/
theorem perform_cases {r : Relay} {now : Timestamp} {id : SessionId} {s : Session}
    (hs : r.sessions.get? id = some s) {motive : Request → Result Response → Prop}
    (joinRoom : ∀ roomId secret,
      motive (.joinRoom roomId secret) (answering .joined (r.join id s roomId secret)))
    (unbound : ∀ request, s.binding = none → (∀ roomId secret, request ≠ .joinRoom roomId secret) →
      motive request (.error .notJoined, r))
    (publishText : ∀ b p, s.binding = some b →
      motive (.publishText p) (answering .published (r.publishText b now p)))
    (publishPointer : ∀ b p, s.binding = some b →
      motive (.publishPointer p) (answering .published (r.publishPointer b p)))
    (publishFile : ∀ b p, s.binding = some b →
      motive (.publishFile p) (answering .published (r.publishFile b now p)))
    (getHistory : ∀ b limit, s.binding = some b →
      motive (.getHistory limit) (.ok (.history (r.recentItems b limit)), r))
    (getHistoryText : ∀ b itemId, s.binding = some b →
      motive (.getHistoryText itemId) ((r.itemText b itemId).map .historyText, r))
    (request : Request) : motive request (r.perform now id request) := by
  cases hb : s.binding with
  | none =>
      cases request with
      | joinRoom roomId secret => simpa only [perform, hs] using joinRoom roomId secret
      | _ => simpa only [perform, hs, hb] using unbound _ hb fun _ _ h => by cases h
  | some b =>
      cases request with
      | joinRoom roomId secret => simpa only [perform, hs] using joinRoom roomId secret
      | publishText p => simpa only [perform, hs, hb] using publishText b p hb
      | publishPointer p => simpa only [perform, hs, hb] using publishPointer b p hb
      | publishFile p => simpa only [perform, hs, hb] using publishFile b p hb
      | getHistory limit => simpa only [perform, hs, hb] using getHistory b limit hb
      | getHistoryText itemId => simpa only [perform, hs, hb] using getHistoryText b itemId hb

end ClipRelay.Relay
