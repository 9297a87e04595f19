import ClipRelay.Bytes

/-!
# ClipRelay.Digest.Base64Url

The URL-safe base64 text of RFC 4648 §5, without padding.

Reading is strict: there is no padding, no character outside the alphabet, and
the bits that the last character has to spare are zero.  So every byte string
has one text and every accepted text is the text of what it denotes.
-/

namespace ClipRelay.Base64Url

/-- The character of a six-bit value. -/
def digit (n : Nat) : Char :=
  if n < 26 then Char.ofNat (65 + n)
  else if n < 52 then Char.ofNat (71 + n)
  else if n < 62 then Char.ofNat (n - 4)
  else if n = 62 then '-' else '_'

/-- The six-bit value of a character. -/
def value? (c : Char) : Option Nat :=
  if 'A' ≤ c ∧ c ≤ 'Z' then some (c.toNat - 65)
  else if 'a' ≤ c ∧ c ≤ 'z' then some (c.toNat - 71)
  else if '0' ≤ c ∧ c ≤ '9' then some (c.toNat + 4)
  else if c = '-' then some 62
  else if c = '_' then some 63
  else none

/-! ## Writing -/

/-- Three bytes make four characters; one or two left over make two or three. -/
def chars : Bytes → List Char
  | [] => []
  | [a] => [digit (a.toNat / 4), digit (a.toNat % 4 * 16)]
  | [a, b] =>
    [digit (a.toNat / 4), digit (a.toNat % 4 * 16 + b.toNat / 16), digit (b.toNat % 16 * 4)]
  | a :: b :: c :: rest =>
    digit (a.toNat / 4) :: digit (a.toNat % 4 * 16 + b.toNat / 16) ::
      digit (b.toNat % 16 * 4 + c.toNat / 64) :: digit (c.toNat % 64) :: chars rest

/-- A byte string as base64url text. -/
def encode (bs : Bytes) : String := String.ofList (chars bs)

/-! ## Reading -/

/-- The bytes of a row of six-bit values. -/
def ofValues? : List Nat → Option Bytes
  | [] => some []
  | [_] => none
  | [p, q] => if q % 16 = 0 then some [UInt8.ofNat (p * 4 + q / 16)] else none
  | [p, q, r] =>
    if r % 4 = 0 then
      some [UInt8.ofNat (p * 4 + q / 16), UInt8.ofNat (q % 16 * 16 + r / 4)]
    else none
  | p :: q :: r :: s :: rest =>
    (ofValues? rest).map fun bs =>
      UInt8.ofNat (p * 4 + q / 16) :: UInt8.ofNat (q % 16 * 16 + r / 4) ::
        UInt8.ofNat (r % 4 * 64 + s) :: bs

/-- The bytes that a base64url text denotes, if it is the text of any. -/
def decode? (s : String) : Option Bytes := (s.toList.mapM value?).bind ofValues?

/-! ## Reading undoes writing, and writing undoes reading -/

theorem value?_digit {n : Nat} (h : n < 64) : value? (digit n) = some n := by
  have hall : ∀ m : Fin 64, value? (digit m) = some m.val := by decide
  exact hall ⟨n, h⟩

/-- A character of the alphabet is the digit of its value. -/
theorem digit_of_value? {c : Char} {n : Nat} (h : value? c = some n) : n < 64 ∧ digit n = c := by
  have hle (a b : Char) : a ≤ b ↔ a.toNat ≤ b.toNat := Iff.rfl
  simp only [value?, hle, show 'A'.toNat = 65 from rfl, show 'Z'.toNat = 90 from rfl,
    show 'a'.toNat = 97 from rfl, show 'z'.toNat = 122 from rfl, show '0'.toNat = 48 from rfl,
    show '9'.toNat = 57 from rfl] at h
  split at h
  · obtain rfl : c.toNat - 65 = n := Option.some.inj h
    have hcode : 65 + (c.toNat - 65) = c.toNat := by omega
    have hlt : c.toNat - 65 < 26 := by omega
    exact ⟨by omega, by rw [digit, if_pos hlt, hcode, Char.ofNat_toNat]⟩
  split at h
  · obtain rfl : c.toNat - 71 = n := Option.some.inj h
    have hcode : 71 + (c.toNat - 71) = c.toNat := by omega
    have hge : ¬c.toNat - 71 < 26 := by omega
    have hlt : c.toNat - 71 < 52 := by omega
    exact ⟨by omega, by rw [digit, if_neg hge, if_pos hlt, hcode, Char.ofNat_toNat]⟩
  split at h
  · obtain rfl : c.toNat + 4 = n := Option.some.inj h
    have hge : ¬c.toNat + 4 < 26 := by omega
    have hge' : ¬c.toNat + 4 < 52 := by omega
    have hlt : c.toNat + 4 < 62 := by omega
    exact ⟨by omega, by
      rw [digit, if_neg hge, if_neg hge', if_pos hlt, Nat.add_sub_cancel, Char.ofNat_toNat]⟩
  split at h
  · obtain rfl : 62 = n := Option.some.inj h
    simp_all [digit]
  split at h
  · obtain rfl : 63 = n := Option.some.inj h
    simp_all [digit]
  cases h

theorem mapM_value?_digit {ns : List Nat} (h : ∀ n ∈ ns, n < 64) :
    (ns.map digit).mapM value? = some ns := by
  induction ns with
  | nil => rfl
  | cons n ns ih =>
      have hn : value? (digit n) = some n := value?_digit (h n List.mem_cons_self)
      have hns := ih fun m hm => h m (List.mem_cons_of_mem n hm)
      simp [List.mapM_cons, hn, hns]

theorem map_digit_of_mapM {cs : List Char} {ns : List Nat} (h : cs.mapM value? = some ns) :
    ns.map digit = cs ∧ ∀ n ∈ ns, n < 64 := by
  induction cs generalizing ns with
  | nil =>
      obtain rfl : [] = ns := Option.some.inj h
      simp
  | cons c cs ih =>
      simp only [List.mapM_cons, Option.bind_eq_bind, Option.bind_eq_some_iff] at h
      obtain ⟨n, hn, ms, hms, hns⟩ := h
      obtain rfl : n :: ms = ns := Option.some.inj hns
      obtain ⟨hlt, hdigit⟩ := digit_of_value? hn
      obtain ⟨hdigits, hall⟩ := ih hms
      simp [hdigit, hdigits, hlt]
      exact hall

/-- The six-bit values of a byte string. -/
def values : Bytes → List Nat
  | [] => []
  | [a] => [a.toNat / 4, a.toNat % 4 * 16]
  | [a, b] => [a.toNat / 4, a.toNat % 4 * 16 + b.toNat / 16, b.toNat % 16 * 4]
  | a :: b :: c :: rest =>
    a.toNat / 4 :: (a.toNat % 4 * 16 + b.toNat / 16) ::
      (b.toNat % 16 * 4 + c.toNat / 64) :: c.toNat % 64 :: values rest

theorem chars_eq (bs : Bytes) : chars bs = (values bs).map digit := by
  fun_induction chars bs <;> simp_all [values]

theorem lt_of_mem_values {bs : Bytes} {n : Nat} (h : n ∈ values bs) : n < 64 := by
  fun_induction values bs with
  | case1 => simp at h
  | case2 a =>
      have ha := a.toNat_lt
      simp only [List.mem_cons, List.not_mem_nil, or_false] at h
      omega
  | case3 a b =>
      have ha := a.toNat_lt
      have hb := b.toNat_lt
      simp only [List.mem_cons, List.not_mem_nil, or_false] at h
      omega
  | case4 a b c rest ih =>
      have ha := a.toNat_lt
      have hb := b.toNat_lt
      simp only [List.mem_cons] at h
      obtain rfl | rfl | rfl | rfl | hrest := h
      · omega
      · omega
      · have hc := c.toNat_lt
        omega
      · omega
      · exact ih hrest

theorem ofNat_eq {b : UInt8} {n : Nat} (h : n = b.toNat) : UInt8.ofNat n = b := by
  rw [h, UInt8.ofNat_toNat]

theorem ofValues?_values (bs : Bytes) : ofValues? (values bs) = some bs := by
  fun_induction values bs with
  | case1 => rfl
  | case2 a =>
      have ha := a.toNat_lt
      have hbits : a.toNat % 4 * 16 % 16 = 0 := by omega
      have hbyte : a.toNat / 4 * 4 + a.toNat % 4 * 16 / 16 = a.toNat := by omega
      rw [ofValues?, if_pos hbits, ofNat_eq hbyte]
  | case3 a b =>
      have ha := a.toNat_lt
      have hb := b.toNat_lt
      have hbits : b.toNat % 16 * 4 % 4 = 0 := by omega
      have hfirst : a.toNat / 4 * 4 + (a.toNat % 4 * 16 + b.toNat / 16) / 16 = a.toNat := by omega
      have hsecond : (a.toNat % 4 * 16 + b.toNat / 16) % 16 * 16 + b.toNat % 16 * 4 / 4 =
          b.toNat := by omega
      rw [ofValues?, if_pos hbits, ofNat_eq hfirst, ofNat_eq hsecond]
  | case4 a b c rest ih =>
      have ha := a.toNat_lt
      have hb := b.toNat_lt
      have hc := c.toNat_lt
      have hfirst : a.toNat / 4 * 4 + (a.toNat % 4 * 16 + b.toNat / 16) / 16 = a.toNat := by omega
      have hsecond : (a.toNat % 4 * 16 + b.toNat / 16) % 16 * 16 +
          (b.toNat % 16 * 4 + c.toNat / 64) / 4 = b.toNat := by omega
      have hthird : (b.toNat % 16 * 4 + c.toNat / 64) % 4 * 64 + c.toNat % 64 = c.toNat := by omega
      rw [ofValues?, ih, Option.map_some, ofNat_eq hfirst, ofNat_eq hsecond, ofNat_eq hthird]

/-- A row of values that denotes bytes is that of the bytes. -/
theorem values_of_ofValues? {ns : List Nat} {bs : Bytes} (h : ofValues? ns = some bs)
    (hlt : ∀ n ∈ ns, n < 64) : values bs = ns := by
  fun_induction ofValues? ns generalizing bs with
  | case1 =>
      obtain rfl : [] = bs := Option.some.inj h
      rfl
  | case2 => contradiction
  | case3 p q hq =>
      obtain rfl := Option.some.inj h
      simp only [List.forall_mem_cons] at hlt
      have hbyte := UInt8.toNat_ofNat_of_lt' (show p * 4 + q / 16 < 256 by omega)
      simp only [values, hbyte, List.cons.injEq, and_true]
      omega
  | case4 => contradiction
  | case5 p q r hr =>
      obtain rfl := Option.some.inj h
      simp only [List.forall_mem_cons] at hlt
      have hfirst := UInt8.toNat_ofNat_of_lt' (show p * 4 + q / 16 < 256 by omega)
      have hsecond := UInt8.toNat_ofNat_of_lt' (show q % 16 * 16 + r / 4 < 256 by omega)
      simp only [values, hfirst, hsecond, List.cons.injEq, and_true]
      omega
  | case6 => contradiction
  | case7 p q r s rest ih =>
      obtain ⟨bs', hbs', rfl⟩ := Option.map_eq_some_iff.mp h
      simp only [List.forall_mem_cons] at hlt
      have hrest : values bs' = rest := ih hbs' hlt.2.2.2.2
      have hfirst := UInt8.toNat_ofNat_of_lt' (show p * 4 + q / 16 < 256 by omega)
      have hsecond := UInt8.toNat_ofNat_of_lt' (show q % 16 * 16 + r / 4 < 256 by omega)
      have hthird := UInt8.toNat_ofNat_of_lt' (show r % 4 * 64 + s < 256 by omega)
      simp only [values, hfirst, hsecond, hthird, hrest, List.cons.injEq, and_true]
      omega

/-- Every byte string is what its text denotes. -/
@[simp] theorem decode?_encode (bs : Bytes) : decode? (encode bs) = some bs := by
  have hvalues : (chars bs).mapM value? = some (values bs) := by
    rw [chars_eq, mapM_value?_digit fun n => lt_of_mem_values]
  simp [decode?, encode, hvalues, ofValues?_values]

/-- Every text that is read is the text of what it denotes. -/
theorem encode_of_decode? {s : String} {bs : Bytes} (h : decode? s = some bs) :
    encode bs = s := by
  obtain ⟨ns, hns, hbs⟩ := Option.bind_eq_some_iff.mp h
  obtain ⟨hchars, hlt⟩ := map_digit_of_mapM hns
  have hvalues : values bs = ns := values_of_ofValues? hbs hlt
  rw [encode, chars_eq, hvalues, hchars, String.ofList_toList]

/-- A text holds the digits of six-bit values only. -/
theorem exists_digit_of_mem {bs : Bytes} {c : Char} (h : c ∈ (encode bs).toList) :
    ∃ n < 64, digit n = c := by
  rw [encode, String.toList_ofList, chars_eq, List.mem_map] at h
  obtain ⟨n, hn, rfl⟩ := h
  exact ⟨n, lt_of_mem_values hn, rfl⟩

end ClipRelay.Base64Url
