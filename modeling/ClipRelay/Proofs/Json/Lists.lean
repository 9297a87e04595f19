import ClipRelay.Proofs.Json.Records

/-!
# ClipRelay.Proofs.Json.Lists

Lists, names and nulls survive JSON.

A list is read element by element, and what it is read from tells an element from the end of
the array by its first byte.  No value begins with a bracket that closes (`write_cons`), so the
elements that were written are those that are read (`Reads.list`).
-/

namespace ClipRelay.Json

open Reader

variable {α : Type} {l : Layout}

/-! ## Values without parts -/

theorem reads_nullable_null (r : Reader α) : Reads l (nullable r) .null none := by
  intro gap rest depth hgap _
  have hnull : write l depth .null ++ rest = 0x6E :: 0x75 :: 0x6C :: 0x6C :: rest := rfl
  rw [nullable_skip hgap, hnull]
  simp [nullable, skipSpace_cons (b := 0x6E) rfl, expect, Except.map]

/-- A text that may be missing. -/
theorem reads_ofOption (s : Option String) :
    Reads l (nullable Reader.string) (.ofOption s) s := by
  cases s with
  | none => exact reads_nullable_null _
  | some s => exact reads_nullable_string s

/-- One of a few names. -/
theorem reads_choice {alternatives : List (String × α)} {name : String} {a : α}
    (h : alternatives.lookup name = some a) :
    Reads l (choice alternatives) (.string name) a := by
  intro gap rest depth hgap _
  have hquote : write l depth (.string name) ++ rest =
      0x22 :: ((Bytes.ofText name).flatMap escapeByte ++ 0x22 :: rest) := by
    simp [write, scalar, quote]
  simp [choice, skipSpace_append hgap, hquote, skipSpace_cons (b := 0x22) rfl,
    stringRest_escaped, h]

/-! ## First bytes -/

/-- Whether a byte may begin a value: it is neither white space nor the end of an array. -/
def Begins (b : UInt8) : Prop := isSpaceByte b = false ∧ b ≠ 0x5D

instance (b : UInt8) : Decidable (Begins b) := inferInstanceAs (Decidable (_ ∧ _))

theorem begins_of_numeral {b : UInt8} (h : b = 0x2D ∨ isDigit b) : Begins b := by
  refine ⟨isSpaceByte_of_numeral h, ?_⟩
  rintro rfl
  revert h
  decide

theorem number_cons (n : Int) : ∃ b bs, number n = b :: bs ∧ Begins b := by
  obtain ⟨n, rfl | rfl⟩ := n.eq_nat_or_neg
  · obtain ⟨b, ds, hds, hb, -⟩ := exists_decimal n
    exact ⟨b, ds, (number_of_nonneg n).trans hds, begins_of_numeral (.inr hb)⟩
  · obtain rfl | hpos := Nat.eq_zero_or_pos n
    · exact ⟨0x30, [], rfl, by decide⟩
    · exact ⟨0x2D, decimal n, number_of_neg hpos, by decide⟩

/-- The text of a value begins with the value. -/
theorem write_cons (l : Layout) (depth : Nat) (j : Json) :
    ∃ b bs, write l depth j = b :: bs ∧ Begins b := by
  cases j with
  | null => exact ⟨0x6E, _, rfl, by decide⟩
  | bool b => cases b <;> exact ⟨_, _, rfl, by decide⟩
  | int n =>
      rw [write, scalar]
      · exact number_cons n
      all_goals simp
  | string s => exact ⟨0x22, _, rfl, by decide⟩
  | array elements =>
      cases elements with
      | nil => exact ⟨0x5B, _, rfl, by decide⟩
      | cons e es =>
          rw [write]
          exact ⟨0x5B, _, rfl, by decide⟩
  | object members =>
      cases members with
      | nil => exact ⟨0x7B, _, rfl, by decide⟩
      | cons m ms =>
          obtain ⟨name, v⟩ := m
          rw [write]
          exact ⟨0x7B, _, rfl, by decide⟩

/-! ## Elements -/

/-- What follows an element: the elements `es`, the end of the array, and `rest`. -/
def elementTail (l : Layout) (depth : Nat) (es : List Json) (rest : Bytes) : Bytes :=
  writeElements l (depth + 1) es ++ (l.lineBreak depth ++ 0x5D :: rest)

theorem ends_elementTail (hl : Spaced l) (depth : Nat) (es : List Json) (rest : Bytes) :
    Ends (elementTail l depth es rest) := by
  cases es with
  | nil =>
      simp only [elementTail, writeElements, List.nil_append]
      exact ends_append (hl.lineBreak depth) (ends_cons (by simp) rest)
  | cons e es =>
      simp only [elementTail, writeElements, List.cons_append]
      exact ends_cons (by simp) _

theorem nextElement_first {gap : Bytes} (h : gap.all isSpaceByte) (depth : Nat) (j : Json)
    (rest : Bytes) :
    nextElement true (gap ++ (write l depth j ++ rest)) = .ok (some (write l depth j ++ rest)) := by
  obtain ⟨b, bs, hj, hspace, hend⟩ := write_cons l depth j
  simp [nextElement, skipSpace_append h, hj, skipSpace_cons hspace]

theorem nextElement_later {gap : Bytes} (h : gap.all isSpaceByte) (depth : Nat) (j : Json)
    (rest : Bytes) :
    nextElement false (0x2C :: (gap ++ (write l depth j ++ rest))) =
      .ok (some (write l depth j ++ rest)) := by
  obtain ⟨b, bs, hj, hspace, hend⟩ := write_cons l depth j
  simp [nextElement, skipSpace_append h, hj, skipSpace_cons hspace, hend,
    skipSpace_cons (b := 0x2C) rfl]

theorem nextElement_end {gap : Bytes} (h : gap.all isSpaceByte) (first : Bool) (rest : Bytes) :
    nextElement first (gap ++ 0x5D :: rest) = .ok none := by
  simp [nextElement, skipSpace_append h, skipSpace_cons (b := 0x5D) rfl]

theorem endArray_written {gap : Bytes} (h : gap.all isSpaceByte) (rest : Bytes) :
    endArray (gap ++ 0x5D :: rest) = .ok ((), rest) := by
  simp [endArray, skipSpace_append h, skipSpace_cons (b := 0x5D) rfl]

/-- The end of an array, behind its elements. -/
theorem elements_end (r : Reader α) {gap : Bytes} (h : gap.all isSpaceByte) (fuel : Nat)
    (acc : List α) (rest : Bytes) :
    elements r (fuel + 1) acc (gap ++ 0x5D :: rest) = .ok (acc.reverse, rest) := by
  rw [elements, nextElement_end h]
  simp only [endArray_written h, Except.map]

section
variable {r : Reader α} {toJson : α → Json}

/-- The elements after the first. -/
theorem elements_tail (hl : Spaced l) {as : List α} (h : ∀ a ∈ as, Reads l r (toJson a) a)
    (depth : Nat) (rest : Bytes) {fuel : Nat} (hfuel : as.length < fuel) {acc : List α}
    (hacc : acc ≠ []) :
    elements r fuel acc (elementTail l depth (as.map toJson) rest) =
      .ok (acc.reverse ++ as, rest) := by
  induction as generalizing fuel acc with
  | nil =>
      obtain ⟨fuel, rfl⟩ := Nat.exists_eq_add_one_of_ne_zero (Nat.ne_zero_of_lt hfuel)
      simp only [List.map_nil, elementTail, writeElements, List.nil_append, List.append_nil]
      exact elements_end r (hl.lineBreak depth) fuel acc rest
  | cons a as ih =>
      obtain ⟨fuel, rfl⟩ := Nat.exists_eq_add_one_of_ne_zero (Nat.ne_zero_of_lt hfuel)
      have hlater : acc.isEmpty = false := by simpa using hacc
      have htail : elementTail l depth ((a :: as).map toJson) rest =
          0x2C :: (l.lineBreak (depth + 1) ++ (write l (depth + 1) (toJson a) ++
            elementTail l depth (as.map toJson) rest)) := by
        simp [elementTail, writeElements]
      have hread := h a List.mem_cons_self [] (elementTail l depth (as.map toJson) rest)
        (depth + 1) rfl (ends_elementTail hl depth _ rest)
      have hrest : elements r fuel (a :: acc) (elementTail l depth (as.map toJson) rest) = _ :=
        ih (fun b hb => h b (List.mem_cons_of_mem a hb)) (by simpa using hfuel)
          (List.cons_ne_nil _ _)
      rw [elements, htail, hlater, nextElement_later (hl.lineBreak (depth + 1))]
      simp only [List.nil_append] at hread
      simp only [hread, hrest]
      simp

theorem length_le_length_writeElements (l : Layout) (depth : Nat) (es : List Json) :
    es.length ≤ (writeElements l depth es).length := by
  induction es with
  | nil => simp
  | cons e es ih =>
      simp only [writeElements, List.length_cons, List.length_append]
      omega

/-- **Lists are read back**: if each of its elements is read from what is written for it, a
list is read from the array of these. -/
theorem Reads.list (hl : Spaced l) {as : List α} (h : ∀ a ∈ as, Reads l r (toJson a) a) :
    Reads l (list r) (.array (as.map toJson)) as := by
  intro gap rest depth hgap _
  rw [Reader.list, skipSpace_append hgap]
  cases as with
  | nil =>
      have hend := elements_end r (List.all_nil (f := isSpaceByte)) (rest.length + 1) [] rest
      simp only [List.nil_append, List.reverse_nil] at hend
      simp [write, skipSpace_cons (b := 0x5B) rfl, hend]
  | cons a as =>
      have htext : write l depth (.array ((a :: as).map toJson)) ++ rest =
          0x5B :: (l.lineBreak (depth + 1) ++ (write l (depth + 1) (toJson a) ++
            elementTail l depth (as.map toJson) rest)) := by
        simp [write, elementTail]
      have hfuel : as.length < (l.lineBreak (depth + 1) ++ (write l (depth + 1) (toJson a) ++
          elementTail l depth (as.map toJson) rest)).length := by
        have hlength := length_le_length_writeElements l (depth + 1) (as.map toJson)
        rw [List.length_map] at hlength
        simp only [elementTail, List.length_append, List.length_cons]
        omega
      have hread := h a List.mem_cons_self [] (elementTail l depth (as.map toJson) rest)
        (depth + 1) rfl (ends_elementTail hl depth _ rest)
      rw [List.nil_append] at hread
      rw [htext, skipSpace_cons rfl]
      simp only [elements, List.isEmpty_nil, nextElement_first (hl.lineBreak (depth + 1)), hread]
      exact elements_tail hl (fun b hb => h b (List.mem_cons_of_mem a hb)) depth rest hfuel
        (List.cons_ne_nil _ _)

end

end ClipRelay.Json
