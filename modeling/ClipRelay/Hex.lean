import ClipRelay.Bytes

/-!
# ClipRelay.Hex

Hexadecimal text of byte strings.

Two digits a byte, high half first.  The relay writes upper case in item ids
and lower case in UUIDs; it reads either case.  What a text `Denotes` is said
without the reader, and `decode?_eq_some_iff` says that the reader gives just
that; `decode?_encode` says that reading undoes writing in both cases.  The
loops run with an accumulator, so that a text of many megabytes is read in
constant stack.
-/

namespace ClipRelay.Hex

/-- The digits of one letter case. -/
inductive Case where
  | lower
  | upper
deriving DecidableEq, Repr

/-- The digit of a value below sixteen. -/
def digit (case : Case) (n : UInt8) : Char :=
  if n < 10 then Char.ofNat (48 + n.toNat)
  else match case with
    | .lower => Char.ofNat (87 + n.toNat)
    | .upper => Char.ofNat (55 + n.toNat)

/-- The value of a digit of either case. -/
def value? (c : Char) : Option UInt8 :=
  if '0' ≤ c ∧ c ≤ '9' then some (UInt8.ofNat (c.toNat - 48))
  else if 'a' ≤ c ∧ c ≤ 'f' then some (UInt8.ofNat (c.toNat - 87))
  else if 'A' ≤ c ∧ c ≤ 'F' then some (UInt8.ofNat (c.toNat - 55))
  else none

/-! ## Writing -/

/-- The two digits of a byte. -/
def digits (case : Case) (b : UInt8) : List Char :=
  [digit case (b / 16), digit case (b % 16)]

/-- The digits of a byte string. -/
def chars (case : Case) (bs : Bytes) : List Char := bs.flatMap (digits case)

/-- A byte string as hexadecimal text. -/
def encode (case : Case) (bs : Bytes) : String := String.ofList (chars case bs)

theorem length_chars (case : Case) (bs : Bytes) : (chars case bs).length = 2 * bs.length := by
  induction bs with
  | nil => rfl
  | cons b bs ih =>
    have hcons : chars case (b :: bs) = digits case b ++ chars case bs := rfl
    rw [hcons, List.length_append, ih, List.length_cons, digits, List.length_cons,
      List.length_singleton]
    omega

/-! ## Reading -/

/-- Reads digits two at a time; `acc` holds the bytes read so far, last first. -/
def readChars (acc : Bytes) : List Char → Option Bytes
  | [] => some acc.reverse
  | [_] => none
  | h :: l :: rest =>
    match value? h, value? l with
    | some a, some b => readChars ((16 * a + b) :: acc) rest
    | _, _ => none

/-- The bytes that a hexadecimal text of either case denotes; an odd number of
digits or a character that is no digit denotes nothing. -/
def decode? (s : String) : Option Bytes := readChars [] s.toList

/-! ## What a text denotes -/

/-- The digits of a letter case, in the order of their values. -/
def alphabet : Case → List Char
  | .lower => "0123456789abcdef".toList
  | .upper => "0123456789ABCDEF".toList

/-- A character is a digit of a value, in the one letter case or the other. -/
def Shows (c : Char) (n : UInt8) : Prop := ∃ case, (alphabet case)[n.toNat]? = some c

/-- A text denotes a byte string: it has two digits for each byte, high half first, each of
them in a letter case of its own. -/
inductive Denotes : List Char → Bytes → Prop
  | nil : Denotes [] []
  | byte {h l : Char} {b : UInt8} {cs : List Char} {bs : Bytes} :
      Shows h (b / 16) → Shows l (b % 16) → Denotes cs bs → Denotes (h :: l :: cs) (b :: bs)

/-- A text is damaged: its length is odd, or a character of it is no digit.  The length may count
characters or bytes, since they differ only where some character is no digit. -/
def Damaged (s : String) : Prop :=
  s.length % 2 = 1 ∨ ∃ c ∈ s.toList, ∀ case, c ∉ alphabet case

/-! ## Digits and values -/

/-- What holds of the sixteen values one by one holds of every value below sixteen. -/
theorem forall_value {P : UInt8 → Prop} (h : ∀ m : Fin 16, P (UInt8.ofNat m)) {n : UInt8}
    (hn : n < 16) : P n := by
  have hlt : n.toNat < 16 := UInt8.lt_iff_toNat_lt.mp hn
  rw [← UInt8.ofNat_toNat (x := n)]
  exact h ⟨n.toNat, hlt⟩

theorem value?_digit (case : Case) (n : UInt8) (hn : n < 16) : value? (digit case n) = some n :=
  forall_value (P := fun n => value? (digit case n) = some n) (by cases case <;> decide) hn

/-- What is read as a value is a digit of it: it is as far behind the first digit of its range
as its value is behind that one's. -/
theorem digit_of_value? {c : Char} {n : UInt8} (h : value? c = some n) :
    n < 16 ∧ ∃ case, digit case n = c := by
  have hdecimals : ∀ i : Fin 10,
      UInt8.ofNat i < 16 ∧ digit .lower (UInt8.ofNat i) = Char.ofNat (48 + i) := by decide
  have hletters : ∀ i : Fin 6, UInt8.ofNat (10 + i) < 16 ∧
      digit .lower (UInt8.ofNat (10 + i)) = Char.ofNat (97 + i) ∧
      digit .upper (UInt8.ofNat (10 + i)) = Char.ofNat (65 + i) := by decide
  have hle (a b : Char) : a ≤ b ↔ a.toNat ≤ b.toNat := Iff.rfl
  simp only [value?, hle, show '0'.toNat = 48 from rfl, show '9'.toNat = 57 from rfl,
    show 'a'.toNat = 97 from rfl, show 'f'.toNat = 102 from rfl, show 'A'.toNat = 65 from rfl,
    show 'F'.toNat = 70 from rfl] at h
  rw [← Char.ofNat_toNat c]
  split at h
  next hdecimal =>
    obtain ⟨i, hi⟩ := Nat.exists_eq_add_of_le hdecimal.1
    obtain ⟨hn, hdigit⟩ := hdecimals ⟨i, by omega⟩
    rw [hi, Nat.add_sub_cancel_left] at h
    rw [hi, ← Option.some.inj h]
    exact ⟨hn, .lower, hdigit⟩
  split at h
  next hlower =>
    obtain ⟨i, hi⟩ := Nat.exists_eq_add_of_le hlower.1
    obtain ⟨hn, hdigit, -⟩ := hletters ⟨i, by omega⟩
    rw [hi, show 97 + i - 87 = 10 + i by omega] at h
    rw [hi, ← Option.some.inj h]
    exact ⟨hn, .lower, hdigit⟩
  split at h
  next hupper =>
    obtain ⟨i, hi⟩ := Nat.exists_eq_add_of_le hupper.1
    obtain ⟨hn, -, hdigit⟩ := hletters ⟨i, by omega⟩
    rw [hi, show 65 + i - 55 = 10 + i by omega] at h
    rw [hi, ← Option.some.inj h]
    exact ⟨hn, .upper, hdigit⟩
  cases h

theorem length_alphabet (case : Case) : (alphabet case).length = 16 := by cases case <;> rfl

theorem getElem?_alphabet (case : Case) {n : UInt8} (hn : n < 16) :
    (alphabet case)[n.toNat]? = some (digit case n) :=
  forall_value (P := fun n => (alphabet case)[n.toNat]? = some (digit case n))
    (by cases case <;> decide) hn

theorem lt_of_getElem?_alphabet {case : Case} {i : Nat} {c : Char}
    (h : (alphabet case)[i]? = some c) : i < 16 :=
  length_alphabet case ▸ (List.getElem?_eq_some_iff.mp h).1

theorem shows_iff {c : Char} {n : UInt8} : Shows c n ↔ n < 16 ∧ ∃ case, digit case n = c := by
  constructor
  · rintro ⟨case, hc⟩
    have hn : n < 16 := UInt8.lt_iff_toNat_lt.mpr (lt_of_getElem?_alphabet hc)
    rw [getElem?_alphabet case hn] at hc
    exact ⟨hn, case, Option.some.inj hc⟩
  · rintro ⟨hn, case, rfl⟩
    exact ⟨case, getElem?_alphabet case hn⟩

theorem value?_eq_some_iff {c : Char} {n : UInt8} : value? c = some n ↔ Shows c n := by
  rw [shows_iff]
  constructor
  · exact digit_of_value?
  · rintro ⟨hn, case, rfl⟩
    exact value?_digit case n hn

/-- What is in no alphabet has no value. -/
theorem value?_eq_none_iff {c : Char} : value? c = none ↔ ∀ case, c ∉ alphabet case := by
  rw [Option.eq_none_iff_forall_ne_some]
  constructor
  · intro hnone case hc
    obtain ⟨i, hi⟩ := List.mem_iff_getElem?.mp hc
    have hcode : (UInt8.ofNat i).toNat = i :=
      UInt8.toNat_ofNat_of_lt' (Nat.lt_trans (lt_of_getElem?_alphabet hi) (by decide))
    exact hnone (UInt8.ofNat i) (value?_eq_some_iff.mpr ⟨case, hcode.symm ▸ hi⟩)
  · intro hc n hn
    obtain ⟨case, hcase⟩ := value?_eq_some_iff.mp hn
    exact hc case (List.mem_of_getElem? hcase)

/-! ## Bytes and halves -/

theorem byte_of_halves (b : UInt8) : 16 * (b / 16) + b % 16 = b := by
  apply UInt8.toNat.inj
  have := b.toNat_lt
  simp [UInt8.toNat_add, UInt8.toNat_mul, UInt8.toNat_div, UInt8.toNat_mod]
  omega

/-- Both halves of a byte are digits. -/
theorem halves_lt (b : UInt8) : b / 16 < 16 ∧ b % 16 < 16 := by
  have := b.toNat_lt
  constructor <;> simp [UInt8.lt_iff_toNat_lt, UInt8.toNat_div, UInt8.toNat_mod] <;> omega

/-- Two values below sixteen are the halves of the byte made of them. -/
theorem halves_of_byte {a b : UInt8} (ha : a < 16) (hb : b < 16) :
    (16 * a + b) / 16 = a ∧ (16 * a + b) % 16 = b := by
  have ha' : a.toNat < 16 := UInt8.lt_iff_toNat_lt.mp ha
  have hb' : b.toNat < 16 := UInt8.lt_iff_toNat_lt.mp hb
  have hsum : (16 * a + b).toNat = 16 * a.toNat + b.toNat := by
    rw [UInt8.toNat_add, UInt8.toNat_mul]
    change (16 * a.toNat % 256 + b.toNat) % 256 = _
    omega
  constructor <;> apply UInt8.toNat.inj
  · rw [UInt8.toNat_div, hsum]
    change (16 * a.toNat + b.toNat) / 16 = a.toNat
    omega
  · rw [UInt8.toNat_mod, hsum]
    change (16 * a.toNat + b.toNat) % 16 = b.toNat
    omega

/-! ## Reading gives what is denoted -/

/-- A byte string is read off every text that denotes it. -/
theorem readChars_of_denotes {cs : List Char} {bs : Bytes} (h : Denotes cs bs) (acc : Bytes) :
    readChars acc cs = some (acc.reverse ++ bs) := by
  induction h generalizing acc with
  | nil => rw [readChars, List.append_nil]
  | @byte h l b cs bs hhigh hlow _ ih =>
      rw [readChars, value?_eq_some_iff.mpr hhigh, value?_eq_some_iff.mpr hlow]
      simp only [byte_of_halves, ih, List.reverse_cons, List.append_assoc, List.singleton_append]

/-- What is read behind `acc` is what the text denotes. -/
theorem denotes_of_readChars {acc bs : Bytes} {cs : List Char} (h : readChars acc cs = some bs) :
    ∃ tail, Denotes cs tail ∧ bs = acc.reverse ++ tail := by
  fun_induction readChars acc cs with
  | case1 acc => exact ⟨[], .nil, by simpa using h.symm⟩
  | case2 acc c => cases h
  | case3 acc high low rest a b hlow hhigh ih =>
      obtain ⟨tail, hdenotes, rfl⟩ := ih h
      obtain ⟨ha, hb⟩ := halves_of_byte (digit_of_value? hhigh).1 (digit_of_value? hlow).1
      refine ⟨(16 * a + b) :: tail, .byte ?_ ?_ hdenotes, by simp⟩
      · rwa [ha, ← value?_eq_some_iff]
      · rwa [hb, ← value?_eq_some_iff]
  | case4 acc high low rest hnot => cases h

/-- The reader stops at a single last character and at one without a value, and nowhere else. -/
theorem readChars_eq_none_iff {acc : Bytes} {cs : List Char} :
    readChars acc cs = none ↔ cs.length % 2 = 1 ∨ ∃ c ∈ cs, value? c = none := by
  fun_induction readChars acc cs with
  | case1 acc => simp
  | case2 acc c => simp
  | case3 acc high low rest a b hlow hhigh ih =>
      have hlength : (high :: low :: rest).length % 2 = rest.length % 2 := Nat.add_mod_right _ 2
      rw [hlength, ih]
      simp only [List.mem_cons, exists_eq_or_imp, hhigh, hlow, reduceCtorEq, false_or]
  | case4 acc high low rest hnot =>
      refine iff_of_true rfl (.inr ?_)
      cases hhigh : value? high with
      | none => exact ⟨high, List.mem_cons_self, hhigh⟩
      | some a =>
          refine ⟨low, List.mem_cons_of_mem _ List.mem_cons_self, ?_⟩
          exact Option.eq_none_iff_forall_ne_some.mpr fun b hlow => hnot a b hhigh hlow

/-- Just what a text denotes is read off it. -/
theorem decode?_eq_some_iff {s : String} {bs : Bytes} :
    decode? s = some bs ↔ Denotes s.toList bs := by
  constructor
  · intro h
    obtain ⟨tail, hdenotes, rfl⟩ := denotes_of_readChars h
    exact hdenotes
  · exact fun h => readChars_of_denotes h []

example : decode? "aB0f" = some [0xAB, 0x0F] := by decide

/-- Just the damaged texts cannot be read. -/
theorem decode?_eq_none_iff {s : String} : decode? s = none ↔ Damaged s := by
  simp only [decode?, readChars_eq_none_iff, String.length_toList, value?_eq_none_iff, Damaged]

theorem decode?_eq_some_nil_iff {s : String} : decode? s = some [] ↔ s = "" := by
  rw [decode?_eq_some_iff]
  constructor
  · intro h
    cases hs : s.toList with
    | nil => exact String.toList_eq_nil_iff.mp hs
    | cons c cs => rw [hs] at h; cases h
  · rintro rfl
    exact .nil

/-! ## Reading undoes writing -/

/-- A byte string is denoted by its digits. -/
theorem denotes_chars (case : Case) (bs : Bytes) : Denotes (chars case bs) bs := by
  induction bs with
  | nil => exact .nil
  | cons b bs ih =>
      obtain ⟨hhigh, hlow⟩ := halves_lt b
      exact .byte (shows_iff.mpr ⟨hhigh, case, rfl⟩) (shows_iff.mpr ⟨hlow, case, rfl⟩) ih

theorem readChars_chars (case : Case) (bs acc : Bytes) :
    readChars acc (chars case bs) = some (acc.reverse ++ bs) :=
  readChars_of_denotes (denotes_chars case bs) acc

/-- Reading a written byte string gives it back. -/
@[simp] theorem decode?_encode (case : Case) (bs : Bytes) : decode? (encode case bs) = some bs := by
  simp [decode?, encode, readChars_chars]

/-- What is written are digits. -/
theorem isSome_value?_of_mem {case : Case} {bs : Bytes} {c : Char}
    (h : c ∈ (encode case bs).toList) : (value? c).isSome := by
  rw [encode, String.toList_ofList] at h
  obtain ⟨b, -, hc⟩ := List.mem_flatMap.mp h
  obtain ⟨hhigh, hlow⟩ := halves_lt b
  obtain rfl | rfl : c = digit case (b / 16) ∨ c = digit case (b % 16) := by
    simpa [digits] using hc
  · rw [value?_digit case _ hhigh, Option.isSome_some]
  · rw [value?_digit case _ hlow, Option.isSome_some]

theorem encode_injective (case : Case) {a b : Bytes} (h : encode case a = encode case b) :
    a = b := by
  have := congrArg decode? h
  simpa using this

end ClipRelay.Hex
