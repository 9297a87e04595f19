/-!
# ClipRelay.Bytes

Byte strings and their reading as UTF-8 text.

Everything the relay hashes, signs, frames or stores is a list of bytes; text
is a `String`.  `Bytes.ofText` and `Bytes.toText?` pass between the two, and
`toText?_ofText` / `ofText_of_toText?` say that they are inverse: a byte list
is the encoding of at most one text, and of one exactly when it is accepted.
-/

namespace ClipRelay

/-- A byte string. -/
abbrev Bytes := List UInt8

namespace Bytes

/-! ## Text -/

/-- The UTF-8 encoding of a text. -/
def ofText (s : String) : Bytes := s.toByteArray.data.toList

/-- The text that a byte list encodes in UTF-8, if it encodes one. -/
def toText? (bs : Bytes) : Option String := String.fromUTF8? ⟨bs.toArray⟩

@[simp] theorem toText?_ofText (s : String) : toText? (ofText s) = some s := by
  have h : (⟨(ofText s).toArray⟩ : ByteArray) = s.toByteArray := by simp [ofText]
  simp [toText?, h, String.fromUTF8?, s.isValidUTF8, String.fromUTF8]

theorem ofText_of_toText? {bs : Bytes} {s : String} (h : toText? bs = some s) :
    ofText s = bs := by
  unfold toText? String.fromUTF8? at h
  split at h
  · cases h; simp [ofText, String.fromUTF8]
  · cases h

theorem ofText_injective {s t : String} (h : ofText s = ofText t) : s = t := by
  have := congrArg toText? h
  simpa using this

/-- The number of bytes of a text in UTF-8. -/
@[simp] theorem length_ofText (s : String) : (ofText s).length = s.utf8ByteSize := by
  rw [ofText, Array.length_toList]; rfl

theorem ofText_append (s t : String) : ofText (s ++ t) = ofText s ++ ofText t := by
  simp [ofText, String.toByteArray_append]

/-- Text in ASCII takes a byte a character. -/
theorem ofText_ofList {cs : List Char} (h : ∀ c ∈ cs, c.toNat < 128) :
    ofText (String.ofList cs) = cs.map fun c => c.toNat.toUInt8 := by
  have hbytes : cs.flatMap String.utf8EncodeChar = cs.map fun c => c.toNat.toUInt8 := by
    induction cs with
    | nil => rfl
    | cons c cs ih =>
      have hcode : c.toNat < 128 := h c List.mem_cons_self
      have hsize : c.utf8Size = 1 := by
        rw [Char.utf8Size_eq_one_iff, UInt32.le_iff_toNat_le]
        exact Nat.le_of_lt_succ hcode
      have hrest := ih fun d hd => h d (List.mem_cons_of_mem c hd)
      rw [List.flatMap_cons, String.utf8EncodeChar_eq_singleton hsize, hrest]
      rfl
  rw [ofText, String.toByteArray_ofList, List.utf8Encode, List.toList_data_toByteArray, hbytes]

/-! ## Fronts of a byte string -/

/-- The first `n` bytes and the rest, if there are that many.  The front is
counted, not the whole string, so a walk over a long buffer stays linear. -/
def splitFront? (n : Nat) (bs : Bytes) : Option (Bytes × Bytes) :=
  let front := bs.take n
  if front.length = n then some (front, bs.drop n) else none

theorem splitFront?_append (front rest : Bytes) :
    splitFront? front.length (front ++ rest) = some (front, rest) := by
  simp [splitFront?]

theorem append_of_splitFront? {n : Nat} {bs front rest : Bytes}
    (h : splitFront? n bs = some (front, rest)) : front ++ rest = bs ∧ front.length = n := by
  simp only [splitFront?] at h
  split at h
  · cases h; simp_all
  · cases h

end Bytes

end ClipRelay
