import ClipRelay.Json.Reader

/-!
# ClipRelay.Proofs.Json.Scalars

Texts and integers survive JSON: what is written is read back.

A writer escapes byte by byte, so a string comes back byte by byte as well:
`Escape` lists the three ways in which a byte is written, and every claim about
a string is an induction over its bytes with one case a way.  A number has no
end of its own; `Ends` says which texts may stand after one.
-/

namespace ClipRelay.Json

open Reader

/-! ## Strings -/

/-- Whether a byte stands for itself in a string. -/
def IsPlain (b : UInt8) : Prop := b ≠ 0x22 ∧ b ≠ 0x5C ∧ ¬b < 0x20
deriving Decidable

/-- How a byte may be written in a string. -/
inductive Escape (b : UInt8) : Bytes → Prop where
  | plain (h : IsPlain b) : Escape b [b]
  | short {c : UInt8} (h : shortEscape? c = some b) : Escape b [0x5C, c]
  | unit {h l : UInt8} (hunit : hexUnit? 0x30 0x30 h l = some b.toNat) (hascii : b.toNat < 128)
      (hh : IsPlain h) (hl : IsPlain l) : Escape b [0x5C, 0x75, 0x30, 0x30, h, l]

theorem escape_control {b : UInt8} (h : b < 0x20) :
    Escape b ([0x5C, 0x75, 0x30, 0x30] ++ (Hex.digits .lower b).map fun c => c.toNat.toUInt8) := by
  have hall : ∀ m : Fin 32,
      hexUnit? 0x30 0x30 (Hex.digit .lower (UInt8.ofNat m / 16)).toNat.toUInt8
          (Hex.digit .lower (UInt8.ofNat m % 16)).toNat.toUInt8 = some m.val ∧
        IsPlain (Hex.digit .lower (UInt8.ofNat m / 16)).toNat.toUInt8 ∧
        IsPlain (Hex.digit .lower (UInt8.ofNat m % 16)).toNat.toUInt8 := by decide
  have hlt : b.toNat < 32 := by simpa [UInt8.lt_iff_toNat_lt] using h
  obtain ⟨hunit, hh, hl⟩ := hall ⟨b.toNat, hlt⟩
  simp only [UInt8.ofNat_toNat] at hunit hh hl
  exact .unit hunit (by omega) hh hl

/-- Every byte is written in one of the ways. -/
theorem escape_escapeByte (b : UInt8) : Escape b (escapeByte b) := by
  unfold escapeByte
  split
  · next h => exact .short (by rw [h]; rfl)
  split
  · next h => exact .short (by rw [h]; rfl)
  split
  · next h => exact .short (by rw [h]; rfl)
  split
  · next h => exact .short (by rw [h]; rfl)
  split
  · next h => exact .short (by rw [h]; rfl)
  split
  · next h => exact .short (by rw [h]; rfl)
  split
  · next h => exact .short (by rw [h]; rfl)
  split
  · next h => exact escape_control h
  · next hquote hsolidus _ _ _ _ _ hcontrol => exact .plain ⟨hquote, hsolidus, hcontrol⟩

/-! ### Finding the end -/

theorem rawString_close (acc rest : Bytes) :
    rawString acc (0x22 :: rest) = .ok (acc.reverse, rest) := by
  cases rest <;> simp [rawString]

theorem rawString_plain {b : UInt8} (h : IsPlain b) (acc rest : Bytes) :
    rawString acc (b :: rest) = rawString (b :: acc) rest := by
  cases rest <;> simp [rawString, h.1, h.2.1, h.2.2]

theorem rawString_pair (c : UInt8) (acc rest : Bytes) :
    rawString acc (0x5C :: c :: rest) = rawString (c :: 0x5C :: acc) rest := by
  simp [rawString]

theorem rawString_escape {b : UInt8} {e : Bytes} (h : Escape b e) (acc rest : Bytes) :
    rawString acc (e ++ rest) = rawString (e.reverse ++ acc) rest := by
  have hzero : IsPlain 0x30 := by decide
  cases h with
  | plain h => simp [rawString_plain h]
  | short h => simp [rawString_pair]
  | unit _ _ hh hl => simp [rawString_pair, rawString_plain, hzero, hh, hl]

/-- The end of a written string is found where it is. -/
theorem rawString_escaped (bs acc rest : Bytes) :
    rawString acc (bs.flatMap escapeByte ++ 0x22 :: rest) =
      .ok (acc.reverse ++ bs.flatMap escapeByte, rest) := by
  induction bs generalizing acc with
  | nil => simp [rawString_close]
  | cons b bs ih =>
      rw [List.flatMap_cons, List.append_assoc, rawString_escape (escape_escapeByte b), ih]
      simp

/-! ### Resolving the escapes -/

theorem codePoint_of_ascii {b : UInt8} (h : b.toNat < 128) : codePoint b.toNat = [b] := by
  have hall : ∀ m : Fin 128, codePoint m = [UInt8.ofNat m] := by decide
  simpa using hall ⟨b.toNat, h⟩

theorem unescape_escape {b : UInt8} {e : Bytes} (h : Escape b e) (acc rest : Bytes) :
    unescape acc (e ++ rest) = unescape (b :: acc) rest := by
  cases h with
  | plain h => simp [unescape, h.2.1]
  | short h =>
      rename_i c
      have hc : c ≠ 0x75 := by
        rintro rfl
        simp [shortEscape?] at h
      simp [unescape, h, hc]
  | unit hunit hascii =>
      have hlow : ¬0xDC00 ≤ b.toNat := by omega
      have hhigh : ¬0xD800 ≤ b.toNat := by omega
      simp [unescape, hunit, hlow, hhigh, codePoint_of_ascii hascii]

/-- The escapes of a written string stand for its bytes. -/
theorem unescape_escaped (bs acc : Bytes) :
    unescape acc (bs.flatMap escapeByte) = some (acc.reverse ++ bs) := by
  induction bs generalizing acc with
  | nil => simp [unescape]
  | cons b bs ih =>
      rw [List.flatMap_cons, unescape_escape (escape_escapeByte b), ih]
      simp

/-- What follows the opening quotation mark of a written text is read as the text. -/
theorem stringRest_escaped (s : String) (rest : Bytes) :
    stringRest ((Bytes.ofText s).flatMap escapeByte ++ 0x22 :: rest) = .ok (s, rest) := by
  simp [stringRest, rawString_escaped, unescape_escaped]

/-! ## Numbers -/

/-- Whether a text may stand after a number: it does not begin with a byte that would
belong to the number. -/
def Ends (rest : Bytes) : Prop :=
  ∀ b ∈ rest.head?, isDigit b = false ∧ b ≠ 0x2E ∧ b ≠ 0x65 ∧ b ≠ 0x45

/-- The decimal digits of a natural number. -/
def decimal (n : Nat) : Bytes := (Nat.toDigits 10 n).map fun c => c.toNat.toUInt8

theorem code_of_mem_toDigits {n : Nat} {c : Char} (h : c ∈ Nat.toDigits 10 n) :
    48 ≤ c.toNat ∧ c.toNat ≤ 57 := by
  have hdigit := Nat.isDigit_of_mem_toDigits (by decide) (by decide) h
  simpa [Char.isDigit, Char.le_def, UInt32.le_iff_toNat_le] using hdigit

theorem toNat_toUInt8_of_digit {c : Char} (h : 48 ≤ c.toNat ∧ c.toNat ≤ 57) :
    c.toNat.toUInt8.toNat = c.toNat :=
  UInt8.toNat_ofNat_of_lt' (show c.toNat < 256 by omega)

theorem number_of_nonneg (n : Nat) : number n = decimal n := by
  have hascii : ∀ c ∈ Nat.toDigits 10 n, c.toNat < 128 := fun c hc => by
    have hcode := code_of_mem_toDigits hc
    omega
  have htext : toString (n : Int) = String.ofList (Nat.toDigits 10 n) :=
    Nat.toString_eq_ofList_toDigits
  rw [number, htext, Bytes.ofText_ofList hascii, decimal]

theorem number_of_neg {n : Nat} (h : 0 < n) : number (-(n : Int)) = 0x2D :: decimal n := by
  have hsign : ¬(0 : Int) ≤ -n := by omega
  have htext : toString (-(n : Int)) = "-" ++ toString n := by
    rw [Int.toString_eq_repr, Int.repr_eq_if, if_neg hsign, Int.neg_neg, Int.toNat_natCast]
    rfl
  have hnat : Bytes.ofText (toString n) = decimal n := number_of_nonneg n
  rw [number, htext, Bytes.ofText_append, hnat]
  rfl

/-! ### Rows of digits -/

theorem isDigit_of_mem_decimal {n : Nat} {b : UInt8} (h : b ∈ decimal n) : isDigit b := by
  obtain ⟨c, hc, rfl⟩ := List.mem_map.mp h
  have hcode := code_of_mem_toDigits hc
  simpa [isDigit, UInt8.le_iff_toNat_le, toNat_toUInt8_of_digit hcode] using hcode

theorem decimal_ne_nil (n : Nat) : decimal n ≠ [] := by
  simp [decimal, Nat.toDigits_ne_nil]

/-- The value of a row of digits is that of the characters that they are. -/
theorem foldl_digits {cs : List Char} (h : ∀ c ∈ cs, 48 ≤ c.toNat ∧ c.toNat ≤ 57) (m : Nat) :
    (cs.map fun c => c.toNat.toUInt8).foldl (fun n d => 10 * n + (d.toNat - 48)) m =
      Nat.ofDigitChars 10 cs m := by
  induction cs generalizing m with
  | nil => rfl
  | cons c cs ih =>
      have hcode := toNat_toUInt8_of_digit (h c List.mem_cons_self)
      simp only [List.map_cons, List.foldl_cons, hcode]
      exact ih (fun d hd => h d (List.mem_cons_of_mem c hd)) _

theorem digitsValue_decimal (n : Nat) : digitsValue (decimal n) = n := by
  rw [digitsValue, decimal, foldl_digits fun c => code_of_mem_toDigits,
    Nat.ofDigitChars_ten_toDigits]

/-- No number but zero itself begins with a zero. -/
theorem toDigits_ne_zero_cons {n : Nat} (h : 0 < n) (rest : List Char) :
    Nat.toDigits 10 n ≠ '0' :: rest := by
  induction n using Nat.strongRecOn generalizing rest with
  | ind n ih =>
      rw [Nat.toDigits_eq_if (by decide)]
      split
      · next hlt =>
        have hall : ∀ m : Fin 10, 0 < m.val → m.val.digitChar ≠ '0' := by decide
        have hdigit := hall ⟨n, hlt⟩ h
        simp [hdigit]
      · next hge =>
        -- The digits of a tenth of the number come first, and there are some.
        intro heq
        obtain ⟨d, ds, hds⟩ :=
          List.exists_cons_of_ne_nil (Nat.toDigits_ne_nil (n := n / 10) (b := 10))
        rw [hds, List.cons_append, List.cons.injEq] at heq
        obtain ⟨rfl, -⟩ := heq
        exact ih (n / 10) (by omega) (by omega) ds hds

theorem decimal_leading (n : Nat) (b : UInt8) (rest : Bytes) : decimal n ≠ 0x30 :: b :: rest := by
  intro h
  obtain ⟨c, cs, hcs, hc, hrest⟩ := List.map_eq_cons_iff.mp h
  obtain rfl | hpos := Nat.eq_zero_or_pos n
  · obtain ⟨-, rfl⟩ : '0' = c ∧ [] = cs := by simpa using hcs
    simp at hrest
  · have hmem : c ∈ Nat.toDigits 10 n := by simp [hcs]
    have hcode := toNat_toUInt8_of_digit (code_of_mem_toDigits hmem)
    obtain rfl : c = '0' := Char.toNat_inj.mp (by rw [← hcode, hc]; rfl)
    exact toDigits_ne_zero_cons hpos cs hcs

/-! ### Reading a number -/

theorem digitRow?_decimal (n : Nat) {rest : Bytes} (h : Ends rest) :
    digitRow? (decimal n ++ rest) = some (decimal n, rest) := by
  have hall : ∀ b ∈ decimal n, isDigit b := fun b => isDigit_of_mem_decimal
  have hstop : rest.takeWhile isDigit = [] ∧ rest.dropWhile isDigit = rest := by
    cases rest with
    | nil => simp
    | cons b rest =>
        have hb : isDigit b = false := (h b rfl).1
        simp [hb]
  rw [digitRow?, List.takeWhile_append_of_pos hall, List.dropWhile_append_of_pos hall, hstop.1,
    hstop.2, List.append_nil]
  split
  · next hnil => exact absurd hnil (decimal_ne_nil n)
  · rfl

theorem wholePart?_decimal (n : Nat) {rest : Bytes} (h : Ends rest) :
    wholePart? (decimal n ++ rest) = some (decimal n, rest) := by
  rw [wholePart?, digitRow?_decimal n h]
  split
  · next heq =>
    obtain ⟨hdecimal, -⟩ := Prod.mk.inj (Option.some.inj heq)
    exact absurd hdecimal (decimal_leading n _ _)
  · rfl

theorem fractionPart?_of_ends {rest : Bytes} (h : Ends rest) :
    fractionPart? rest = some (none, rest) := by
  cases rest with
  | nil => rfl
  | cons b rest =>
      have hb : b ≠ 0x2E := (h b rfl).2.1
      simp [fractionPart?, hb]

theorem exponentPart?_of_ends {rest : Bytes} (h : Ends rest) :
    exponentPart? rest = some (none, rest) := by
  cases rest with
  | nil => rfl
  | cons b rest =>
      obtain ⟨-, -, hsmall, hlarge⟩ := h b rfl
      simp [exponentPart?, hsmall, hlarge]

/-- The first digit of a number, which is no minus. -/
theorem exists_decimal (n : Nat) : ∃ b ds, decimal n = b :: ds ∧ isDigit b ∧ b ≠ 0x2D := by
  obtain ⟨b, ds, hds⟩ := List.exists_cons_of_ne_nil (decimal_ne_nil n)
  have hb : isDigit b := isDigit_of_mem_decimal (n := n) (by simp [hds])
  refine ⟨b, ds, hds, hb, ?_⟩
  rintro rfl
  simp [isDigit] at hb

theorem numeral?_decimal (n : Nat) {rest : Bytes} (h : Ends rest) :
    numeral? (decimal n ++ rest) = some (⟨false, decimal n, none, none⟩, rest) := by
  obtain ⟨b, ds, hds, -, hminus⟩ := exists_decimal n
  have hwhole := wholePart?_decimal n h
  rw [hds, List.cons_append] at hwhole ⊢
  simp [numeral?, hminus, hwhole, fractionPart?_of_ends h, exponentPart?_of_ends h]

theorem numeral?_neg_decimal (n : Nat) {rest : Bytes} (h : Ends rest) :
    numeral? (0x2D :: (decimal n ++ rest)) = some (⟨true, decimal n, none, none⟩, rest) := by
  simp [numeral?, wholePart?_decimal n h, fractionPart?_of_ends h, exponentPart?_of_ends h]

/-- How a 64-bit integer is written: as a number below 2⁶³, or as a minus and one
up to 2⁶³. -/
theorem number_cases (i : Int64) :
    (∃ n : Nat, n < Nat.pow 2 63 ∧ Int64.ofInt n = i ∧ number i.toInt = decimal n) ∨
      ∃ n : Nat, 0 < n ∧ n ≤ Nat.pow 2 63 ∧ Int64.ofInt (-(n : Int)) = i ∧
        number i.toInt = 0x2D :: decimal n := by
  have hpow : Nat.pow 2 63 = 9223372036854775808 := rfl
  have hlow := i.le_toInt
  have hhigh := i.toInt_lt
  obtain ⟨n, hn | hn⟩ := Int.eq_nat_or_neg i.toInt
  · exact .inl ⟨n, by omega, by rw [← hn, Int64.ofInt_toInt], by rw [hn, number_of_nonneg]⟩
  · obtain rfl | hpos := Nat.eq_zero_or_pos n
    · exact .inl ⟨0, by omega, by rw [← Int64.ofInt_toInt i, hn]; rfl, by rw [hn]; rfl⟩
    · exact .inr ⟨n, hpos, by omega, by rw [← hn, Int64.ofInt_toInt],
        by rw [hn, number_of_neg hpos]⟩

end ClipRelay.Json
