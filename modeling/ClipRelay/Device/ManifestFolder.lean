import ClipRelay.Device.Failure
import ClipRelay.Device.Manifest
import ClipRelay.Table

/-!
# ClipRelay.Device.ManifestFolder

Manifests as files of one folder.

A room has one file, named after it; characters that a file name might not take
become underscores.  A manifest is written to a file of its own first, which
then takes the place of the old one, so that a reader never finds half of it.
A file that holds no manifest counts as an empty one, except that bytes which
are no text at all are reported.
-/

namespace ClipRelay

/-- What a name in a folder stands for. -/
inductive FolderEntry where
  | file (bytes : Bytes)
  | folder
deriving DecidableEq

/-- A folder. -/
abbrev Folder := Table String FolderEntry

namespace Folder

/-- The longest name of a file, in bytes of UTF-8. -/
def maxNameBytes : Nat := 255

/-- The content of a file; none if there is no such name. -/
def read (f : Folder) (name : String) : Except DeviceError (Option Bytes) :=
  if maxNameBytes < name.utf8ByteSize then .error .io
  else match f.get? name with
    | none => .ok none
    | some (.file bytes) => .ok (some bytes)
    | some .folder => .error .io

/-- Writes a file, in place of one of that name. -/
def write (f : Folder) (name : String) (bytes : Bytes) : Except DeviceError Folder :=
  if maxNameBytes < name.utf8ByteSize then .error .io
  else match f.get? name with
    | some .folder => .error .io
    | _ => .ok (f.insert name (.file bytes))

/-- Gives a file another name, in place of the file that had it. -/
def rename (f : Folder) (old new : String) : Except DeviceError Folder :=
  if maxNameBytes < new.utf8ByteSize then .error .io
  else match f.get? old, f.get? new with
    | none, _ | _, some .folder => .error .io
    | some entry, _ => .ok ((f.erase old).insert new entry)

end Folder

/-! ## Paths -/

namespace FilePath

/-- The path that goes on from a folder to a name in it.  A name that is a path from the root
leads there from everywhere. -/
def join (folder name : String) : String :=
  if name.toList.head? = some '/' then name
  else if folder.toList.getLast?.all (· == '/') then folder ++ name
  else folder ++ "/" ++ name

/-- The parts of a path, from the outside in: what stands between its slashes.  Nothing and a
single point lead nowhere and do not count. -/
def parts (path : String) : List String :=
  ((path.toList.splitOnP (· == '/')).filter fun part => part ≠ [] ∧ part ≠ ['.']).map String.ofList

end FilePath

/-! ## Files of a room -/

namespace Manifest

/-- Whether a character of a room id stands for itself in a file name. -/
def isPlain (c : Char) : Bool := c.isAlphanum || c == '-' || c == '_'

/-- The name of the file of a room. -/
def fileName (roomId : String) : String :=
  "manifest." ++ String.ofList (roomId.toList.map fun c => if isPlain c then c else '_') ++ ".json"

/-- The name of the file that a room's manifest is first written to. -/
def draftName (roomId : String) : String := fileName roomId ++ ".tmp"

/-- Where the file of a room lies, for a folder of manifests. -/
def path (folder roomId : String) : String := FilePath.join folder (fileName roomId)

/-- Where the file lies that a room's manifest is first written to. -/
def draftPath (folder roomId : String) : String := FilePath.join folder (draftName roomId)

/-- Reads the manifest of a room. -/
def load (f : Folder) (roomId : String) : Except DeviceError Manifest :=
  match f.read (fileName roomId) with
  | .error e => .error e
  | .ok none => .ok (.empty roomId)
  | .ok (some bytes) =>
    if (Bytes.toText? bytes).isNone then .error .io
    else match ofBytes? bytes with
      | some m => .ok { m with roomId }
      | none => .ok (.empty roomId)

/-- Writes the manifest of a room.  If the old file cannot be replaced, the new
one stays beside it. -/
def save (f : Folder) (m : Manifest) : Except DeviceError Unit × Folder :=
  match f.write (draftName m.roomId) m.toBytes with
  | .error e => (.error e, f)
  | .ok f =>
    match f.rename (draftName m.roomId) (fileName m.roomId) with
    | .error e => (.error e, f)
    | .ok f => (.ok (), f)

end Manifest

end ClipRelay
