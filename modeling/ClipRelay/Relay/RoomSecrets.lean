import ClipRelay.Clip.ContentId
import ClipRelay.Table
import ClipRelay.Text.Blank

/-!
# ClipRelay.Relay.RoomSecrets

The secrets of rooms.

The first caller who names a room and a secret fixes the secret of that room
for good; later callers must bring the same one.  Only hashes are kept.
-/

namespace ClipRelay

/-- The hashed secrets of the rooms that were ever entered. -/
structure RoomSecrets where
  hashes : Table String Bytes := ∅

namespace RoomSecrets

/-- Whether a room may be entered with a secret, and the secrets afterwards. -/
def enter (r : RoomSecrets) (roomId secret : String) : Bool × RoomSecrets :=
  if Text.isBlank roomId || Text.isBlank secret then (false, r)
  else
    let hash := secretHash roomId secret
    match r.hashes.get? roomId with
    | some known => (decide (known = hash), r)
    | none => (true, ⟨r.hashes.insert roomId hash⟩)

/-- Whether a room may be entered, and the hash of its secret afterwards, given
the hash that is known of it. -/
def verdict (known : Option Bytes) (roomId secret : String) : Bool × Option Bytes :=
  if Text.isBlank roomId || Text.isBlank secret then (false, known)
  else match known with
    | some hash => (decide (hash = secretHash roomId secret), known)
    | none => (true, some (secretHash roomId secret))

theorem fst_enter (r : RoomSecrets) (roomId secret : String) :
    (r.enter roomId secret).1 = (verdict (r.hashes.get? roomId) roomId secret).1 := by
  unfold enter verdict
  by_cases hb : (Text.isBlank roomId || Text.isBlank secret) = true
  · rw [if_pos hb, if_pos hb]
  · rw [if_neg hb, if_neg hb]
    cases r.hashes.get? roomId <;> rfl

/-- Entering a room touches no secret but its own. -/
theorem get?_enter (r : RoomSecrets) (roomId secret other : String) :
    (r.enter roomId secret).2.hashes.get? other =
      if roomId = other then (verdict (r.hashes.get? roomId) roomId secret).2
      else r.hashes.get? other := by
  unfold enter verdict
  by_cases hb : (Text.isBlank roomId || Text.isBlank secret) = true
  · rw [if_pos hb, if_pos hb]
    by_cases ho : roomId = other
    · rw [if_pos ho, ho]
    · rw [if_neg ho]
  · rw [if_neg hb, if_neg hb]
    cases hk : r.hashes.get? roomId with
    | some known =>
        by_cases ho : roomId = other
        · rw [if_pos ho, ← ho, hk]
        · rw [if_neg ho]
    | none => exact Table.get?_insert _ _ _ _

/-- A secret is good for a room: neither is blank, and the room has that secret
or none. -/
def Accepts (r : RoomSecrets) (roomId secret : String) : Prop :=
  Text.isBlank roomId = false ∧ Text.isBlank secret = false ∧
    ∀ hash, r.hashes.get? roomId = some hash → hash = secretHash roomId secret

/-- Whoever enters a room with a secret fixes the secret of that room: neither
is blank, and the room has none yet. -/
def Founds (r : RoomSecrets) (roomId secret : String) : Prop :=
  Text.isBlank roomId = false ∧ Text.isBlank secret = false ∧ r.hashes.get? roomId = none

instance (r : RoomSecrets) (roomId secret : String) : Decidable (r.Founds roomId secret) :=
  inferInstanceAs (Decidable (_ ∧ _))

theorem Founds.accepts {r : RoomSecrets} {roomId secret : String} (h : r.Founds roomId secret) :
    r.Accepts roomId secret := by
  obtain ⟨hroom, hsecret, hnone⟩ := h
  refine ⟨hroom, hsecret, fun hash hhash => ?_⟩
  rw [hnone] at hhash
  contradiction

theorem fst_enter_iff {r : RoomSecrets} {roomId secret : String} :
    (r.enter roomId secret).1 = true ↔ r.Accepts roomId secret := by
  unfold enter Accepts
  cases hroom : Text.isBlank roomId with
  | true => simp
  | false =>
      cases hsecret : Text.isBlank secret with
      | true => simp
      | false => cases hk : r.hashes.get? roomId <;> simp

theorem snd_enter (r : RoomSecrets) (roomId secret : String) :
    (r.enter roomId secret).2 =
      if r.Founds roomId secret then ⟨r.hashes.insert roomId (secretHash roomId secret)⟩
      else r := by
  by_cases hf : r.Founds roomId secret
  · obtain ⟨hroom, hsecret, hnone⟩ := hf
    rw [if_pos ⟨hroom, hsecret, hnone⟩]
    simp [enter, hroom, hsecret, hnone]
  · rw [if_neg hf, enter]
    by_cases hb : (Text.isBlank roomId || Text.isBlank secret) = true
    · rw [if_pos hb]
    · rw [if_neg hb]
      cases hk : r.hashes.get? roomId with
      | some known => rfl
      | none =>
          rw [Bool.not_eq_true, Bool.or_eq_false_iff] at hb
          exact absurd ⟨hb.1, hb.2, hk⟩ hf

end RoomSecrets

end ClipRelay
