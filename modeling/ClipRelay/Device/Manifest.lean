import ClipRelay.Clip.ContentId
import ClipRelay.Clip.History
import ClipRelay.Json.Reader

/-!
# ClipRelay.Device.Manifest

The manifest of a room: the list of recent items that devices keep next to the
payloads they share, since the relay sees only pointers to those.

A manifest is newest first.  Recording an item takes out any older one of the
same id, so that an id is listed once, and drops what no longer fits.
-/

namespace ClipRelay

/-- An entry of a manifest. -/
structure ManifestEntry where
  id : String
  kind : HistoryKind
  origin : Uuid
  time : Timestamp
  title : String
  preview : Option String
  sizeBytes : Int64
  contentType : String
  /-- The hash of the content as hexadecimal text, in upper case when written here. -/
  contentHash : String
  providerFileId : Option String
  objectKey : Option String
deriving DecidableEq

/-- The items of a room, newest first. -/
structure Manifest where
  roomId : String
  items : List ManifestEntry
deriving DecidableEq

/-! ## Items -/

namespace ManifestEntry

/-- The entry for a payload that a pointer leads to. -/
def ofPointer (p : Pointer) (kind : HistoryKind) (title : String) (preview : Option String) :
    ManifestEntry where
  id := contentId p.time p.origin p.contentHash
  kind
  origin := p.origin
  time := p.time
  title
  preview
  sizeBytes := p.sizeBytes
  contentType := p.contentType
  contentHash := Hex.encode .upper p.contentHash
  providerFileId := p.providerFileId
  objectKey := some p.objectKey

/-- An entry as a history item of a room.  A hash that cannot be read is left
out; the item is listed all the same. -/
def toHistoryItem (roomId : String) (i : ManifestEntry) : HistoryItem where
  id := i.id
  roomId
  kind := i.kind
  origin := i.origin
  time := i.time
  title := i.title
  preview := i.preview
  sizeBytes := i.sizeBytes
  contentHash := (Hex.decode? i.contentHash).getD []
  contentType := i.contentType
  providerFileId := i.providerFileId
  objectKey := i.objectKey

end ManifestEntry

/-! ## Lists -/

namespace Manifest

/-- The least number of items that a manifest can be limited to. -/
def minCapacity : Nat := 1

/-- The greatest number of items that a manifest can be limited to. -/
def maxCapacity : Nat := 200

/-- A manifest without items. -/
def empty (roomId : String) : Manifest := ⟨roomId, []⟩

/-- Puts an item in front, in place of any of the same id, and keeps `capacity`
items at most. -/
def record (capacity : Nat) (item : ManifestEntry) (m : Manifest) : Manifest :=
  let others := m.items.filter fun i => i.id ≠ item.id
  { m with items := (item :: others).take (max minCapacity (min capacity maxCapacity)) }

/-- The items as history items of the room. -/
def toHistory (m : Manifest) : List HistoryItem := m.items.map (·.toHistoryItem m.roomId)

end Manifest

/-! ## JSON -/

/-- The name of a kind of item in a manifest. -/
def HistoryKind.name : HistoryKind → String
  | .text => "Text"
  | .file => "File"

namespace ManifestEntry

def toJson (i : ManifestEntry) : Json :=
  .object
    [("id", .string i.id), ("kind", .string i.kind.name),
      ("originDeviceId", .string i.origin.hyphenated), ("tsUtcMs", .int i.time.toInt),
      ("title", .string i.title), ("preview", .ofOption i.preview),
      ("sizeBytes", .int i.sizeBytes.toInt), ("contentType", .string i.contentType),
      ("contentHash", .string i.contentHash), ("providerFileId", .ofOption i.providerFileId),
      ("objectKey", .ofOption i.objectKey)]

/-- The members of an item read so far. -/
structure Draft where
  id : Option String := none
  kind : Option HistoryKind := none
  origin : Option Uuid := none
  time : Option Int64 := none
  title : Option String := none
  preview : Option (Option String) := none
  sizeBytes : Option Int64 := none
  contentType : Option String := none
  contentHash : Option String := none
  providerFileId : Option (Option String) := none
  objectKey : Option (Option String) := none

def Draft.finish (d : Draft) : Option ManifestEntry := do
  some ⟨← d.id, ← d.kind, ← d.origin, ← d.time, ← d.title, d.preview.join, ← d.sizeBytes,
    ← d.contentType, ← d.contentHash, d.providerFileId.join, d.objectKey.join⟩

/-- An identifier in any of its text forms. -/
def uuidReader : Json.Reader Uuid := fun bs =>
  match Json.Reader.string bs with
  | .error e => .error e
  | .ok (s, rest) =>
    match Uuid.parse? s with
    | some u => .ok (u, rest)
    | none => .error .mismatched

/-- A text or null. -/
def text? : Json.Reader (Option String) := Json.Reader.nullable Json.Reader.string

def kindReader : Json.Reader HistoryKind := Json.Reader.choice [("Text", .text), ("File", .file)]

/-- Preview, file id and object key may be missing. -/
def reader : Json.Reader ManifestEntry :=
  Json.Reader.record
    [.named "id" Draft.id (fun d v => { d with id := some v }) Json.Reader.string,
      .named "kind" Draft.kind (fun d v => { d with kind := some v }) kindReader,
      .named "originDeviceId" Draft.origin (fun d v => { d with origin := some v }) uuidReader,
      .named "tsUtcMs" Draft.time (fun d v => { d with time := some v }) Json.Reader.int64,
      .named "title" Draft.title (fun d v => { d with title := some v }) Json.Reader.string,
      .named "preview" Draft.preview (fun d v => { d with preview := some v }) text?,
      .named "sizeBytes" Draft.sizeBytes (fun d v => { d with sizeBytes := some v })
        Json.Reader.int64,
      .named "contentType" Draft.contentType (fun d v => { d with contentType := some v })
        Json.Reader.string,
      .named "contentHash" Draft.contentHash (fun d v => { d with contentHash := some v })
        Json.Reader.string,
      .named "providerFileId" Draft.providerFileId (fun d v => { d with providerFileId := some v })
        text?,
      .named "objectKey" Draft.objectKey (fun d v => { d with objectKey := some v }) text?]
    {} Draft.finish

end ManifestEntry

namespace Manifest

def toJson (m : Manifest) : Json :=
  .object [("roomId", .string m.roomId), ("items", .array (m.items.map ManifestEntry.toJson))]

/-- The text of a manifest, as it is stored. -/
def toBytes (m : Manifest) : Bytes := m.toJson.pretty

/-- The members of a manifest read so far. -/
structure Draft where
  roomId : Option String := none
  items : Option (List ManifestEntry) := none

def Draft.finish (d : Draft) : Option Manifest := do some ⟨← d.roomId, d.items.getD []⟩

/-- The items may be missing. -/
def reader : Json.Reader Manifest :=
  Json.Reader.record
    [.named "roomId" Draft.roomId (fun d v => { d with roomId := some v }) Json.Reader.string,
      .named "items" Draft.items (fun d v => { d with items := some v })
        (Json.Reader.list ManifestEntry.reader)]
    {} Draft.finish

/-- The manifest that a text holds, if it is one. -/
def ofBytes? (bs : Bytes) : Option Manifest := (reader.whole bs).toOption

end Manifest

end ClipRelay
