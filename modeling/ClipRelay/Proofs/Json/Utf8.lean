import ClipRelay.Proofs.Json.Records

/-!
# ClipRelay.Proofs.Json.Utf8

What is written as JSON is text.

A writer escapes bytes, not characters, but the bytes that it escapes are whole characters: each
byte of a character beyond ASCII stands for itself (`flatMap_escapeByte_utf8EncodeChar`).  So the
bytes of a value are the UTF-8 form of some text, and a reader that asks for text takes them.
-/

namespace ClipRelay

/-- Whether bytes are the UTF-8 form of a text. -/
def Bytes.IsText (bs : Bytes) : Prop := ∃ s, ofText s = bs

namespace Bytes

theorem isText_ofText (s : String) : IsText (ofText s) := ⟨s, rfl⟩

theorem isText_iff {bs : Bytes} : IsText bs ↔ (toText? bs).isSome := by
  rw [Option.isSome_iff_exists]
  constructor
  · rintro ⟨s, rfl⟩
    exact ⟨s, toText?_ofText s⟩
  · rintro ⟨s, hs⟩
    exact ⟨s, ofText_of_toText? hs⟩

theorem IsText.append {bs cs : Bytes} (h : IsText bs) (h' : IsText cs) : IsText (bs ++ cs) := by
  obtain ⟨s, rfl⟩ := h
  obtain ⟨t, rfl⟩ := h'
  exact ⟨s ++ t, ofText_append s t⟩

theorem isText_ascii (bs : Bytes) (h : ∀ b ∈ bs, b < 128) : IsText bs := by
  have hcode : ∀ b ∈ bs, (Char.ofNat b.toNat).toNat = b.toNat := fun b hb => by
    have hlt := UInt8.lt_iff_toNat_lt.mp (h b hb)
    have hall : ∀ m : Fin 128, (Char.ofNat m).toNat = m := by decide
    exact hall ⟨b.toNat, hlt⟩
  refine ⟨String.ofList (bs.map fun b => Char.ofNat b.toNat), ?_⟩
  rw [ofText_ofList, List.map_map]
  · refine (List.map_congr_left fun b hb => ?_).trans (List.map_id bs)
    rw [Function.comp_apply, hcode b hb, id_eq]
    exact UInt8.ofNat_toNat
  · intro c hc
    obtain ⟨b, hb, rfl⟩ := List.mem_map.mp hc
    rw [hcode b hb]
    exact UInt8.lt_iff_toNat_lt.mp (h b hb)

theorem IsText.cons {b : UInt8} (hb : b < 128) {bs : Bytes} (h : IsText bs) : IsText (b :: bs) :=
  (isText_ascii [b] (by simpa using hb)).append h

theorem isText_flatMap {α : Type} {f : α → Bytes} (h : ∀ a, IsText (f a)) (as : List α) :
    IsText (as.flatMap f) := by
  induction as with
  | nil => exact isText_ofText ""
  | cons a as ih =>
      rw [List.flatMap_cons]
      exact (h a).append ih

/-- The UTF-8 form of a text is that of its characters. -/
theorem ofText_eq_flatMap (s : String) : ofText s = s.toList.flatMap String.utf8EncodeChar := by
  conv => lhs; rw [← String.ofList_toList (s := s)]
  rw [ofText, String.toByteArray_ofList, List.utf8Encode, List.toList_data_toByteArray]

theorem isText_utf8EncodeChar (c : Char) : IsText (String.utf8EncodeChar c) := by
  refine ⟨String.singleton c, ?_⟩
  simp [ofText_eq_flatMap]

/-- Characters beyond ASCII have no ASCII byte. -/
theorem le_of_mem_utf8EncodeChar {c : Char} (h : 128 ≤ c.toNat) {b : UInt8}
    (hb : b ∈ String.utf8EncodeChar c) : 128 ≤ b := by
  have hascii : ¬c.val.toNat ≤ 127 := Nat.not_le.mpr h
  rw [String.utf8EncodeChar] at hb
  simp only [if_neg hascii] at hb
  rw [UInt8.le_iff_toNat_le]
  split at hb <;> (try split at hb) <;>
    simp only [List.mem_cons, List.not_mem_nil, or_false] at hb <;>
    rcases hb with rfl | rfl | rfl | rfl <;> simp <;> omega

end Bytes

namespace Json

variable {l : Layout}

open Reader (isSpaceByte)

/-! ## Strings and numbers -/

/-- A byte in ASCII is written in ASCII. -/
theorem escapeByte_ascii {b : UInt8} (h : b < 128) : ∀ c ∈ escapeByte b, c < 128 := by
  have hall : ∀ m : Fin 128, (escapeByte (UInt8.ofNat m)).all (· < 128) := by decide
  have hlt := UInt8.lt_iff_toNat_lt.mp h
  simpa using hall ⟨b.toNat, hlt⟩

/-- A byte beyond ASCII stands for itself. -/
theorem escapeByte_of_le {b : UInt8} (h : 128 ≤ b) : escapeByte b = [b] := by
  have hall : ∀ m : Fin 128, escapeByte (UInt8.ofNat (128 + m)) = [UInt8.ofNat (128 + m)] := by
    decide
  have hle : 128 ≤ b.toNat := UInt8.le_iff_toNat_le.mp h
  have hlt := b.toNat_lt
  have hb := hall ⟨b.toNat - 128, by omega⟩
  simpa [Nat.add_sub_cancel' hle] using hb

theorem flatMap_escapeByte_of_le {bs : Bytes} (h : ∀ b ∈ bs, 128 ≤ b) :
    bs.flatMap escapeByte = bs := by
  induction bs with
  | nil => rfl
  | cons b bs ih =>
      rw [List.flatMap_cons, escapeByte_of_le (h b List.mem_cons_self),
        ih fun c hc => h c (List.mem_cons_of_mem b hc)]
      rfl

/-- A character is written as text. -/
theorem isText_escaped (c : Char) :
    Bytes.IsText ((String.utf8EncodeChar c).flatMap escapeByte) := by
  by_cases hc : c.toNat < 128
  · refine Bytes.isText_ascii _ fun b hb => ?_
    obtain ⟨a, ha, hb⟩ := List.mem_flatMap.mp hb
    refine escapeByte_ascii ?_ b hb
    have hsize : c.utf8Size = 1 := by
      rw [Char.utf8Size_eq_one_iff, UInt32.le_iff_toNat_le]
      exact Nat.le_of_lt_succ hc
    rw [String.utf8EncodeChar_eq_singleton hsize, List.mem_singleton] at ha
    rw [ha, UInt8.lt_iff_toNat_lt, UInt32.toNat_toUInt8]
    exact Nat.lt_of_le_of_lt (Nat.mod_le _ _) hc
  · rw [flatMap_escapeByte_of_le fun b hb =>
      Bytes.le_of_mem_utf8EncodeChar (Nat.not_lt.mp hc) hb]
    exact Bytes.isText_utf8EncodeChar c

theorem isText_quote (s : String) : Bytes.IsText (quote s) := by
  have hbody : Bytes.IsText ((Bytes.ofText s).flatMap escapeByte) := by
    rw [Bytes.ofText_eq_flatMap, List.flatMap_assoc]
    exact Bytes.isText_flatMap isText_escaped _
  exact .cons (by decide) (hbody.append (Bytes.isText_ascii [0x22] (by simp)))

theorem isText_scalar (j : Json) : Bytes.IsText (scalar j) := by
  unfold scalar
  split
  all_goals first
    | exact Bytes.isText_ofText _
    | exact isText_quote _

/-! ## Layouts -/

theorem isText_space {gap : Bytes} (h : gap.all isSpaceByte) : Bytes.IsText gap := by
  refine Bytes.isText_ascii _ fun b hb => ?_
  have hspace := List.all_eq_true.mp h b hb
  simp only [isSpaceByte, Bool.or_eq_true, beq_iff_eq] at hspace
  obtain ((rfl | rfl) | rfl) | rfl := hspace <;> decide

theorem Spaced.isText_colon (hl : Spaced l) : Bytes.IsText l.colon := by
  obtain ⟨gap, hcolon, hgap⟩ := hl.colon
  rw [hcolon]
  exact .cons (by decide) (isText_space hgap)

theorem Spaced.isText_lineBreak (hl : Spaced l) (depth : Nat) : Bytes.IsText (l.lineBreak depth) :=
  isText_space (hl.lineBreak depth)

mutual

/-- **Values are written as text**, whatever the white space between their parts. -/
theorem isText_write (hl : Spaced l) (depth : Nat) :
    (j : Json) → Bytes.IsText (write l depth j)
  | .null | .bool _ | .int _ | .string _ => isText_scalar _
  | .array [] => Bytes.isText_ascii [0x5B, 0x5D] (by simp)
  | .array (e :: es) => by
    have hfirst := isText_write hl (depth + 1) e
    have hothers := isText_writeElements hl (depth + 1) es
    rw [write]
    exact .cons (by decide) <| (hl.isText_lineBreak _).append hfirst |>.append hothers
      |>.append (hl.isText_lineBreak _) |>.append (Bytes.isText_ascii [0x5D] (by simp))
  | .object [] => Bytes.isText_ascii [0x7B, 0x7D] (by simp)
  | .object ((name, v) :: ms) => by
    have hvalue := isText_write hl (depth + 1) v
    have hothers := isText_writeMembers hl (depth + 1) ms
    rw [write]
    exact .cons (by decide) <| (hl.isText_lineBreak _).append (isText_quote name)
      |>.append hl.isText_colon |>.append hvalue |>.append hothers
      |>.append (hl.isText_lineBreak _) |>.append (Bytes.isText_ascii [0x7D] (by simp))

theorem isText_writeElements (hl : Spaced l) (depth : Nat) :
    (es : List Json) → Bytes.IsText (writeElements l depth es)
  | [] => Bytes.isText_ofText ""
  | e :: es => by
    have hfirst := isText_write hl depth e
    have hothers := isText_writeElements hl depth es
    rw [writeElements]
    exact .cons (by decide) <| (hl.isText_lineBreak _).append hfirst |>.append hothers

theorem isText_writeMembers (hl : Spaced l) (depth : Nat) :
    (ms : List (String × Json)) → Bytes.IsText (writeMembers l depth ms)
  | [] => Bytes.isText_ofText ""
  | (name, v) :: ms => by
    have hvalue := isText_write hl depth v
    have hothers := isText_writeMembers hl depth ms
    rw [writeMembers]
    exact .cons (by decide) <| (hl.isText_lineBreak _).append (isText_quote name)
      |>.append hl.isText_colon |>.append hvalue |>.append hothers

end

end Json

end ClipRelay
