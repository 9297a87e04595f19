import ClipRelay.Clip.Content
import ClipRelay.RoomKey
import ClipRelay.Table

/-!
# ClipRelay.Relay.Payloads

The payloads of files, by room and item id.
-/

namespace ClipRelay

/-- Why a payload is not stored. -/
inductive PayloadError where
  | empty
  | tooLarge (max : Nat)
deriving DecidableEq, Repr

def PayloadError.message : PayloadError → String
  | .empty => "bytes are required"
  | .tooLarge max => s!"file exceeds max of {max} bytes"

/-- Payloads by room and item id. -/
structure Payloads where
  maxSize : Nat := maxFileSize
  payloads : Table (RoomKey × String) Bytes := ∅

namespace Payloads

/-- Stores a payload in place of one stored under the same name before. -/
def put (s : Payloads) (key : RoomKey) (itemId : String) (bytes : Bytes) :
    Except PayloadError Payloads :=
  if bytes.isEmpty then .error .empty
  else if s.maxSize < bytes.length then .error (.tooLarge s.maxSize)
  else .ok { s with payloads := s.payloads.insert (key, itemId) bytes }

/-- The payload stored under a name. -/
def get? (s : Payloads) (key : RoomKey) (itemId : String) : Option Bytes :=
  s.payloads.get? (key, itemId)

/-- What is wrong with a payload, where at most `max` bytes are stored. -/
def fault? (max : Nat) (bytes : Bytes) : Option PayloadError :=
  if bytes.isEmpty then some .empty else if max < bytes.length then some (.tooLarge max) else none

theorem put_of_fault {s : Payloads} {bytes : Bytes} {e : PayloadError}
    (h : fault? s.maxSize bytes = some e) (key : RoomKey) (itemId : String) :
    s.put key itemId bytes = .error e := by
  rw [fault?] at h
  rw [put]
  by_cases he : bytes.isEmpty
  · rw [if_pos he] at h ⊢
    exact congrArg Except.error (Option.some.inj h)
  · rw [if_neg he] at h ⊢
    by_cases hm : s.maxSize < bytes.length
    · rw [if_pos hm] at h ⊢
      exact congrArg Except.error (Option.some.inj h)
    · rw [if_neg hm] at h
      contradiction

theorem put_of_sound {s : Payloads} {bytes : Bytes} (h : fault? s.maxSize bytes = none)
    (key : RoomKey) (itemId : String) :
    s.put key itemId bytes = .ok { s with payloads := s.payloads.insert (key, itemId) bytes } := by
  rw [fault?] at h
  rw [put]
  by_cases he : bytes.isEmpty
  · rw [if_pos he] at h
    contradiction
  · rw [if_neg he] at h ⊢
    by_cases hm : s.maxSize < bytes.length
    · rw [if_pos hm] at h
      contradiction
    · rw [if_neg hm]

theorem maxSize_of_put {s s' : Payloads} {key : RoomKey} {itemId : String} {bytes : Bytes}
    (h : s.put key itemId bytes = .ok s') : s'.maxSize = s.maxSize := by
  cases hf : fault? s.maxSize bytes with
  | some e =>
      rw [put_of_fault hf] at h
      contradiction
  | none =>
      rw [put_of_sound hf] at h
      cases h
      rfl

/-- A payload that was stored is found under its name, and no other is changed. -/
theorem get?_of_put {s s' : Payloads} {key : RoomKey} {itemId : String} {bytes : Bytes}
    (h : s.put key itemId bytes = .ok s') (key' : RoomKey) (itemId' : String) :
    s'.get? key' itemId' =
      if key = key' ∧ itemId = itemId' then some bytes else s.get? key' itemId' := by
  cases hf : fault? s.maxSize bytes with
  | some e =>
      rw [put_of_fault hf] at h
      contradiction
  | none =>
      rw [put_of_sound hf] at h
      cases h
      simp only [get?, Table.get?_insert, Prod.mk.injEq]

end Payloads

end ClipRelay
