import ClipRelay.Clip.Content
import ClipRelay.Digest.Sha256

/-!
# ClipRelay.Clip.ContentId

Hashes of content, and the names made from them.

A history item is named after its time, its device and its content hash; a
stored payload also after its room.
-/

namespace ClipRelay

/-- The hash of a text. -/
def textHash (text : String) : Bytes := Sha256.digest (Bytes.ofText text)

@[simp] theorem length_textHash (text : String) : (textHash text).length = Sha256.size := by
  simp [textHash]

/-- Whether two hashes are the same, compared byte by byte; hashes of different lengths
never are. -/
def hashEquals (a b : Bytes) : Bool := a.length == b.length && (a.zip b).all fun (x, y) => x == y

/-- Nothing but the same bytes are equal hashes. -/
theorem hashEquals_iff {a b : Bytes} : hashEquals a b ↔ a = b := by
  induction a generalizing b with
  | nil => cases b <;> simp [hashEquals]
  | cons x a ih =>
      cases b with
      | nil => simp [hashEquals]
      | cons y b =>
          have hcons : hashEquals (x :: a) (y :: b) ↔ x = y ∧ hashEquals a b := by
            simp [hashEquals, and_left_comm]
          rw [hcons, ih, List.cons.injEq]

/-- The hash under which a room remembers its secret. -/
def secretHash (roomId secret : String) : Bytes :=
  textHash (roomId ++ "\n" ++ secret)

/-- A time as decimal digits, with a minus sign before the epoch. -/
def timeText (t : Timestamp) : String := toString t.toInt

theorem isDigit_of_mem_toString {n : Nat} {c : Char} (h : c ∈ (toString n).toList) :
    c.isDigit := by
  rw [Nat.toString_eq_ofList_toDigits, String.toList_ofList] at h
  exact Nat.isDigit_of_mem_toDigits (by decide) (by decide) h

theorem toString_nat_injective : Function.Injective fun n : Nat => toString n := by
  intro m n h
  have hdigits : Nat.toDigits 10 m = Nat.toDigits 10 n := by
    simpa only [Nat.toString_eq_ofList_toDigits, String.ofList_inj] using h
  rw [← Nat.ofDigitChars_ten_toDigits (n := m), hdigits, Nat.ofDigitChars_ten_toDigits]

theorem toList_toString_negSucc (n : Nat) :
    (toString (Int.negSucc n)).toList = '-' :: (toString (n + 1)).toList := by
  have hsign : toString (Int.negSucc n) = "-" ++ toString (n + 1) := rfl
  rw [hsign, String.toList_append]
  rfl

theorem mem_timeText {t : Timestamp} {c : Char} (h : c ∈ (timeText t).toList) :
    c = '-' ∨ c.isDigit := by
  unfold timeText at h
  cases ht : t.toInt with
  | ofNat n =>
      rw [ht] at h
      exact .inr (isDigit_of_mem_toString h)
  | negSucc n =>
      rw [ht, toList_toString_negSucc, List.mem_cons] at h
      exact h.imp_right isDigit_of_mem_toString

/-- Different times have different texts: only one with a sign is before the epoch, and the
digits tell the rest. -/
theorem timeText_injective : Function.Injective timeText := by
  intro t t' h
  have hsign (m n : Nat) :
      (toString (Int.ofNat m)).toList ≠ (toString (Int.negSucc n)).toList := fun heq => by
    have hminus : '-' ∈ (toString m).toList := by
      change '-' ∈ (toString (Int.ofNat m)).toList
      rw [heq, toList_toString_negSucc]
      exact List.mem_cons_self
    exact absurd (isDigit_of_mem_toString hminus) (by decide)
  have hchars := congrArg String.toList h
  unfold timeText at hchars
  apply Int64.toInt_inj.mp
  cases ht : t.toInt <;> cases ht' : t'.toInt <;> rw [ht, ht'] at hchars
  case ofNat.ofNat m n =>
    exact congrArg Int.ofNat (toString_nat_injective (String.toList_injective hchars))
  case ofNat.negSucc m n => exact absurd hchars (hsign m n)
  case negSucc.ofNat m n => exact absurd hchars.symm (hsign n m)
  case negSucc.negSucc m n =>
    rw [toList_toString_negSucc, toList_toString_negSucc, List.cons.injEq] at hchars
    have hsucc := toString_nat_injective (String.toList_injective hchars.2)
    rw [Nat.succ.inj hsucc]

/-- The name of a history item. -/
def contentId (time : Timestamp) (device : Uuid) (hash : Bytes) : String :=
  timeText time ++ "_" ++ device.simple ++ "_" ++ Hex.encode .upper hash

/-- The name under which the payload of a text is stored. -/
def textObjectKey (roomId : String) (time : Timestamp) (device : Uuid) (hash : Bytes) : String :=
  "clips/" ++ roomId ++ "/" ++ contentId time device hash ++ ".txt"

/-! ## Texts too long to hash -/

/-- A text is longer than allowed. -/
structure TextTooLarge where
  size : Nat
  max : Nat
deriving DecidableEq

def TextTooLarge.message (e : TextTooLarge) : String :=
  s!"Text exceeds max of {e.max} UTF-8 bytes (got {e.size})"

/-- The hash of a text that is short enough for the relay. -/
def boundedTextHash (text : String) : Except TextTooLarge Bytes :=
  if text.utf8ByteSize ≤ maxTextSize then .ok (textHash text)
  else .error ⟨text.utf8ByteSize, maxTextSize⟩

end ClipRelay
