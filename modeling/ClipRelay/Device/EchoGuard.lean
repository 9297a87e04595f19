import ClipRelay.Clip.ContentId

/-!
# ClipRelay.Device.EchoGuard

What keeps a clipboard update from bouncing between devices.

Every device both sends and receives the same stream, so three rules apply.
An update that a device sent itself is not applied.  For a short while after a
remote update was written to the local clipboard, local changes are taken for
the echo of that write.  And a local change is not published when it comes
right after the last one that was, or has the same content.

Times are whole milliseconds; a clock may also run backwards.
-/

namespace ClipRelay

/-- The memory of the three rules. -/
structure EchoGuard where
  /-- How long local changes count as echoes of a remote update. -/
  ignoreWindow : Int := 600
  /-- How long after a publish no other is made. -/
  debounceWindow : Int := 200
  /-- Until when local changes count as echoes. -/
  ignoreUntil : Option Int := none
  /-- The time and content hash of the last change that was let through. -/
  lastPublish : Option (Int × Bytes) := none
deriving DecidableEq

namespace EchoGuard

/-- Whether a remote update comes from the device itself. -/
def isOwnUpdate (device origin : Uuid) : Bool := decide (device = origin)

/-- Notes that a remote update is about to be written to the local clipboard. -/
def noteRemoteUpdate (g : EchoGuard) (now : Int) : EchoGuard :=
  { g with ignoreUntil := some (now + g.ignoreWindow) }

/-- Whether a local change counts as the echo of a remote update. -/
def isEcho (g : EchoGuard) (now : Int) : Bool :=
  match g.ignoreUntil with
  | some limit => now ≤ limit
  | none => false

/-- Whether a local change is to be held back: it comes within the debounce
window of the last one let through, or repeats its content. -/
def holdsBack (g : EchoGuard) (now : Int) (hash : Bytes) : Bool :=
  match g.lastPublish with
  | some (last, lastHash) =>
    (0 ≤ now - last && now - last < g.debounceWindow) || decide (lastHash = hash)
  | none => false

/-- Decides about a local change, and remembers it if it is let through. -/
def pass (g : EchoGuard) (now : Int) (hash : Bytes) : Bool × EchoGuard :=
  if g.holdsBack now hash then (false, g)
  else (true, { g with lastPublish := some (now, hash) })

/-- Local changes count as echoes up to the end of the window of a remote update. -/
theorem isEcho_noteRemoteUpdate {g : EchoGuard} {applied now : Int}
    (h : now ≤ applied + g.ignoreWindow) : (g.noteRemoteUpdate applied).isEcho now :=
  decide_eq_true h

end EchoGuard

end ClipRelay
