import ClipRelay.Http.Upgrade
import ClipRelay.Proofs.Json.Utf8
import Mathlib.Data.List.TakeWhile

/-!
# ClipRelay.Proofs.Http.Percent

Percent-encoding, and that reading undoes it.

Every text can be written with inert characters only, which delimit nothing in the
target of a request (`percentEncode`).  What is written so is read back as a segment of
a path (`segment?_percentEncode`) and as a name or value of a query
(`queryText_percentEncode`).  Whole queries are read back pair by pair
(`queryPairs_writeQuery`), so a query that is written says which token is found in it
(`queryToken_eq_some_iff`, `queryToken_eq_none_iff`).
-/

namespace ClipRelay.Http

/-! ## Encoding -/

/-- Whether a byte stands for itself in a percent-encoded text: letters, digits,
hyphens, points, underscores and tildes do. -/
def isUnreserved (b : UInt8) : Bool :=
  (0x30 ≤ b && b ≤ 0x39) || (0x41 ≤ b && b ≤ 0x5A) || (0x61 ≤ b && b ≤ 0x7A) ||
    b == 0x2D || b == 0x2E || b == 0x5F || b == 0x7E

/-- The characters that stand for a byte. -/
def percentChars (b : UInt8) : List Char :=
  if isUnreserved b then [Char.ofNat b.toNat] else '%' :: Hex.digits .upper b

/-- A text as a segment of a path, or as a name or value in a query. -/
def percentEncode (s : String) : String :=
  String.ofList ((Bytes.ofText s).flatMap percentChars)

/-- The ASCII characters that delimit nothing in a target, nor stand for a blank. -/
def Inert (c : Char) : Prop :=
  c.toNat < 128 ∧ c ≠ '/' ∧ c ≠ '?' ∧ c ≠ '#' ∧ c ≠ '&' ∧ c ≠ '=' ∧ c ≠ '+'

instance (c : Char) : Decidable (Inert c) := inferInstanceAs (Decidable (_ ∧ _))

/-- What holds of the bytes one by one holds of all. -/
theorem forall_byte {P : UInt8 → Prop} (h : ∀ n : Fin 256, P (UInt8.ofNat n.val)) (b : UInt8) :
    P b := by
  have hb := h ⟨b.toNat, b.toNat_lt⟩
  rwa [UInt8.ofNat_toNat] at hb

theorem inert_of_mem_percentChars {b : UInt8} {c : Char} (h : c ∈ percentChars b) : Inert c := by
  have hall : ∀ b, ((percentChars b).all fun c => Inert c) = true :=
    forall_byte (by decide +kernel)
  exact of_decide_eq_true (List.all_eq_true.mp (hall b) c h)

theorem inert_of_mem_percentEncode {s : String} {c : Char}
    (h : c ∈ (percentEncode s).toList) : Inert c := by
  rw [percentEncode, String.toList_ofList] at h
  obtain ⟨b, -, hc⟩ := List.mem_flatMap.mp h
  exact inert_of_mem_percentChars hc

theorem percentEncode_ne_empty {s : String} (h : s ≠ "") : percentEncode s ≠ "" := by
  intro hempty
  have hflat : (Bytes.ofText s).flatMap percentChars = [] := by
    simpa [percentEncode] using congrArg String.toList hempty
  have hnil : Bytes.ofText s = [] := by
    refine List.eq_nil_iff_forall_not_mem.mpr fun b hb => ?_
    have hchars := List.flatMap_eq_nil_iff.mp hflat b hb
    unfold percentChars at hchars
    split at hchars <;> contradiction
  exact h (Bytes.ofText_injective hnil)

/-! ## Decoding -/

theorem percentDecode_cons_of_ne {b : UInt8} (h : b ≠ 0x25) (rest : Bytes) :
    percentDecode (b :: rest) = b :: percentDecode rest := by
  rw [percentDecode]
  intro _ _ _ hb
  exact absurd hb h

theorem hexByte?_digit {n : UInt8} (h : n < 16) :
    hexByte? (Hex.digit .upper n).toNat.toUInt8 = some n :=
  Hex.forall_value (P := fun n => hexByte? (Hex.digit .upper n).toNat.toUInt8 = some n)
    (by decide) h

/-- The characters of a byte are read as that byte, whatever follows. -/
theorem percentDecode_percentChars (b : UInt8) (rest : Bytes) :
    percentDecode ((percentChars b).map (fun c => c.toNat.toUInt8) ++ rest) =
      b :: percentDecode rest := by
  have hself : ∀ b, isUnreserved b → b ≠ 0x25 ∧ (Char.ofNat b.toNat).toNat.toUInt8 = b :=
    forall_byte (by decide +kernel)
  unfold percentChars
  split
  · next hunreserved =>
    obtain ⟨hne, hchar⟩ := hself b hunreserved
    simp only [List.map_cons, List.map_nil, hchar, List.cons_append, List.nil_append]
    exact percentDecode_cons_of_ne hne rest
  · obtain ⟨hhigh, hlow⟩ := Hex.halves_lt b
    have hpercent : '%'.toNat.toUInt8 = 0x25 := rfl
    simp only [Hex.digits, List.map_cons, List.map_nil, hpercent, List.cons_append,
      List.nil_append, percentDecode, hexByte?_digit hhigh, hexByte?_digit hlow,
      Hex.byte_of_halves]

theorem percentDecode_flatMap (bs : Bytes) :
    percentDecode ((bs.flatMap percentChars).map fun c => c.toNat.toUInt8) = bs := by
  induction bs with
  | nil => rfl
  | cons b bs ih =>
      rw [List.flatMap_cons, List.map_append, percentDecode_percentChars, ih]

/-- A text of inert characters takes a byte a character. -/
theorem ofText_percentEncode (s : String) :
    Bytes.ofText (percentEncode s) =
      ((Bytes.ofText s).flatMap percentChars).map fun c => c.toNat.toUInt8 := by
  refine Bytes.ofText_ofList fun c hc => ?_
  obtain ⟨b, -, hc⟩ := List.mem_flatMap.mp hc
  exact (inert_of_mem_percentChars hc).1

theorem percentDecode_percentEncode (s : String) :
    percentDecode (Bytes.ofText (percentEncode s)) = Bytes.ofText s := by
  rw [ofText_percentEncode, percentDecode_flatMap]

/-- No byte of a percent-encoded text is that of a delimiter or of a plus sign. -/
theorem ne_of_mem_percentEncode {s : String} {b : UInt8}
    (h : b ∈ Bytes.ofText (percentEncode s)) : b ≠ 0x26 ∧ b ≠ 0x3D ∧ b ≠ 0x2B := by
  rw [ofText_percentEncode, List.map_flatMap] at h
  obtain ⟨a, -, hb⟩ := List.mem_flatMap.mp h
  have hall : ∀ a, (((percentChars a).map fun c => c.toNat.toUInt8).all fun b =>
      b ≠ 0x26 ∧ b ≠ 0x3D ∧ b ≠ 0x2B) = true := forall_byte (by decide +kernel)
  exact of_decide_eq_true (List.all_eq_true.mp (hall a) b hb)

/-- A percent-encoded text is read back as a segment. -/
@[simp] theorem segment?_percentEncode (s : String) : segment? (percentEncode s) = some s := by
  rw [segment?, percentDecode_percentEncode, Bytes.toText?_ofText]

/-! ## Reading text whatever the bytes are -/

/-- Bytes begin with one character at most. -/
theorem eq_of_utf8EncodeChar_append {c d : Char} {rest rest' : Bytes}
    (h : String.utf8EncodeChar c ++ rest = String.utf8EncodeChar d ++ rest') : c = d := by
  have hfirst := congrArg (fun bs => bs.toByteArray.utf8DecodeChar? 0) h
  simpa only [List.toByteArray_append, ByteArray.utf8DecodeChar?_utf8EncodeChar_append,
    Option.some.injEq] using hfirst

/-- The front of a character is no text. -/
theorem toText?_take_of_lt {c : Char} {n : Nat} (hpos : 0 < n) (hlt : n < c.utf8Size)
    (rest : Bytes) : Bytes.toText? ((String.utf8EncodeChar c ++ rest).take n) = none := by
  have hlength := String.length_utf8EncodeChar c
  cases htext : Bytes.toText? ((String.utf8EncodeChar c ++ rest).take n) with
  | none => rfl
  | some s =>
      have hbytes := Bytes.ofText_of_toText? htext
      have hsize := congrArg List.length hbytes
      rw [List.length_take, List.length_append] at hsize
      rw [Bytes.ofText_eq_flatMap] at hbytes hsize
      cases hs : s.toList with
      | nil =>
          rw [hs, List.flatMap_nil, List.length_nil] at hsize
          omega
      | cons d ds =>
          rw [hs, List.flatMap_cons] at hbytes hsize
          -- The text would begin with the same character, which needs more bytes.
          have hsplit := List.take_append_drop n (String.utf8EncodeChar c ++ rest)
          rw [← hbytes, List.append_assoc] at hsplit
          rw [eq_of_utf8EncodeChar_append hsplit, List.length_append] at hsize
          omega

theorem toText?_take_utf8Size (c : Char) (rest : Bytes) :
    Bytes.toText? ((String.utf8EncodeChar c ++ rest).take c.utf8Size) =
      some (String.singleton c) := by
  have hbytes : Bytes.ofText (String.singleton c) = String.utf8EncodeChar c := by
    simp [Bytes.ofText_eq_flatMap]
  rw [List.take_left' (String.length_utf8EncodeChar c), ← hbytes, Bytes.toText?_ofText]

/-- The sizes below that of a character are tried before it. -/
theorem sizes_eq (c : Char) : ∃ shorter longer, [1, 2, 3, 4] = shorter ++ c.utf8Size :: longer ∧
    ∀ n ∈ shorter, 0 < n ∧ n < c.utf8Size := by
  obtain h | h | h | h := c.utf8Size_eq <;> rw [h]
  · exact ⟨[], [2, 3, 4], rfl, by decide⟩
  · exact ⟨[1], [3, 4], rfl, by decide⟩
  · exact ⟨[1, 2], [4], rfl, by decide⟩
  · exact ⟨[1, 2, 3], [], rfl, by decide⟩

/-- A character is read at its own size. -/
theorem lossyText_utf8EncodeChar (fuel : Nat) (c : Char) (rest : Bytes) :
    lossyText (fuel + 1) (String.utf8EncodeChar c ++ rest) = c :: lossyText fuel rest := by
  obtain ⟨b, bs, hbs⟩ := List.exists_cons_of_ne_nil
    (List.append_ne_nil_of_left_ne_nil (String.utf8EncodeChar_ne_nil (c := c)) rest)
  obtain ⟨shorter, longer, hsizes, hshorter⟩ := sizes_eq c
  let reading (n : Nat) : Option (List Char × Bytes) :=
    (Bytes.toText? ((b :: bs).take n)).map fun s => (s.toList, (b :: bs).drop n)
  have hnone : shorter.filterMap reading = [] := by
    refine List.filterMap_eq_nil_iff.mpr fun n hn => ?_
    obtain ⟨hpos, hlt⟩ := hshorter n hn
    simp only [reading, ← hbs, toText?_take_of_lt hpos hlt, Option.map_none]
  have hsome : reading c.utf8Size = some ([c], rest) := by
    simp only [reading, ← hbs, toText?_take_utf8Size, Option.map_some,
      List.drop_left' (String.length_utf8EncodeChar c), String.toList_singleton]
  have hreadings : [1, 2, 3, 4].filterMap reading = ([c], rest) :: longer.filterMap reading := by
    rw [hsizes, List.filterMap_append, hnone, List.nil_append, List.filterMap_cons_some hsome]
  rw [hbs]
  change (match [1, 2, 3, 4].filterMap reading with
    | (cs, after) :: _ => cs ++ lossyText fuel after
    | [] => '\ufffd' :: lossyText fuel bs) = _
  rw [hreadings]
  rfl

/-- The bytes of a text are read as that text. -/
theorem lossyText_ofText {n : Nat} {s : String} (h : (Bytes.ofText s).length ≤ n) :
    lossyText n (Bytes.ofText s) = s.toList := by
  rw [Bytes.ofText_eq_flatMap] at h ⊢
  generalize s.toList = cs at h ⊢
  induction cs generalizing n with
  | nil => cases n <;> rfl
  | cons c cs ih =>
      have hpos := c.utf8Size_pos
      rw [List.flatMap_cons, List.length_append, String.length_utf8EncodeChar] at h
      obtain ⟨n, rfl⟩ : ∃ m, n = m + 1 := ⟨n - 1, by omega⟩
      rw [List.flatMap_cons, lossyText_utf8EncodeChar, ih (by omega)]

/-- A percent-encoded text is read back as a name or value of a query. -/
theorem queryText_percentEncode (s : String) :
    queryText (Bytes.ofText (percentEncode s)) = s := by
  have hplus : (Bytes.ofText (percentEncode s)).map (fun b => if b = 0x2B then 0x20 else b) =
      Bytes.ofText (percentEncode s) :=
    (List.map_congr_left fun b hb => if_neg (ne_of_mem_percentEncode hb).2.2).trans
      (List.map_id' _)
  simp only [queryText, hplus, percentDecode_percentEncode, lossyText_ofText (Nat.le_refl _),
    String.ofList_toList]

/-! ## Queries -/

/-- A name and a value in a query. -/
def writePair (p : String × String) : String := percentEncode p.1 ++ "=" ++ percentEncode p.2

/-- Pairs as a query. -/
def writeQuery (ps : List (String × String)) : String := "&".intercalate (ps.map writePair)

theorem ofText_writePair (p : String × String) :
    Bytes.ofText (writePair p) =
      Bytes.ofText (percentEncode p.1) ++ 0x3D :: Bytes.ofText (percentEncode p.2) := by
  rw [writePair, Bytes.ofText_append, Bytes.ofText_append, List.append_assoc]
  rfl

theorem not_ampersand_mem_writePair (p : String × String) :
    (0x26 : UInt8) ∉ Bytes.ofText (writePair p) := by
  rw [ofText_writePair, List.mem_append, List.mem_cons]
  rintro (h | h | h)
  · exact (ne_of_mem_percentEncode h).1 rfl
  · contradiction
  · exact (ne_of_mem_percentEncode h).1 rfl

theorem writeQuery_cons_cons (p q : String × String) (ps : List (String × String)) :
    writeQuery (p :: q :: ps) = writePair p ++ "&" ++ writeQuery (q :: ps) := by
  simp only [writeQuery, List.map_cons, String.intercalate_cons_cons]

theorem ofText_writeQuery (ps : List (String × String)) :
    Bytes.ofText (writeQuery ps) =
      [(0x26 : UInt8)].intercalate (ps.map fun p => Bytes.ofText (writePair p)) := by
  induction ps with
  | nil => rfl
  | cons p ps ih =>
      cases ps with
      | nil => simp [writeQuery]
      | cons q ps =>
          rw [writeQuery_cons_cons, Bytes.ofText_append, Bytes.ofText_append, ih]
          simp only [List.map_cons, List.intercalate_cons_cons]
          rfl

/-- A pair is read back: its name ends at the equals sign. -/
theorem readPair_writePair (p : String × String) :
    (queryText ((Bytes.ofText (writePair p)).takeWhile (· != 0x3D)),
      queryText (((Bytes.ofText (writePair p)).dropWhile (· != 0x3D)).drop 1)) = p := by
  have hname : ∀ b ∈ Bytes.ofText (percentEncode p.1), (b != 0x3D) = true :=
    fun b hb => bne_iff_ne.mpr (ne_of_mem_percentEncode hb).2.1
  rw [ofText_writePair, List.takeWhile_append_of_pos hname, List.dropWhile_append_of_pos hname,
    List.takeWhile_cons_of_neg (by decide), List.dropWhile_cons_of_neg (by decide),
    List.append_nil, List.drop_one, List.tail_cons, queryText_percentEncode,
    queryText_percentEncode]

/-- **Queries are read back**, whatever texts the names and values are. -/
theorem queryPairs_writeQuery (ps : List (String × String)) : queryPairs (writeQuery ps) = ps := by
  have hparts : ((Bytes.ofText (writeQuery ps)).splitOnP (· == 0x26)).filter (· ≠ []) =
      ps.map fun p => Bytes.ofText (writePair p) := by
    rw [ofText_writeQuery, ← List.splitOn_eq_splitOnP]
    cases ps with
    | nil => rfl
    | cons p ps =>
        rw [List.splitOn_intercalate]
        · refine List.filter_eq_self.mpr fun part hpart => ?_
          obtain ⟨q, -, rfl⟩ := List.mem_map.mp hpart
          simp [ofText_writePair]
        · intro part hpart
          obtain ⟨q, -, rfl⟩ := List.mem_map.mp hpart
          exact not_ampersand_mem_writePair q
        · simp
  simp only [queryPairs, hparts, List.map_map]
  exact (List.map_congr_left fun p _ => readPair_writePair p).trans (List.map_id' ps)

/-- The token of a query is the value of the one pair with its name. -/
theorem queryToken_eq_some_iff {ps : List (String × String)} {token : String} :
    queryToken (writeQuery ps) = .ok (some token) ↔
      (ps.filter fun p => p.1 = "access_token") = [("access_token", token)] := by
  rw [queryToken, queryPairs_writeQuery]
  cases hnamed : ps.filter fun p => p.1 = "access_token" with
  | nil => simp
  | cons p others =>
      have hmem : p ∈ ps.filter fun p => p.1 = "access_token" := hnamed ▸ List.mem_cons_self
      have hp : p.1 = "access_token" := of_decide_eq_true (List.mem_filter.mp hmem).2
      cases others with
      | nil => simp [Prod.ext_iff, hp]
      | cons q others => simp

theorem queryToken_eq_none_iff {ps : List (String × String)} :
    queryToken (writeQuery ps) = .ok none ↔ ∀ p ∈ ps, p.1 ≠ "access_token" := by
  have hnone : (∀ p ∈ ps, p.1 ≠ "access_token") ↔
      (ps.filter fun p => p.1 = "access_token") = [] := by
    simp [List.filter_eq_nil_iff]
  rw [queryToken, queryPairs_writeQuery, hnone]
  split
  · next h => simp [h]
  · next h => simp [h]
  · next h _ => simpa using h

/-- A request carries pairs in its query, percent-encoded; to carry none it needs no query. -/
def Request.Carries (r : Request) (ps : List (String × String)) : Prop :=
  ∃ path, (∀ c ∈ path.toList, c ≠ '?' ∧ c ≠ '#') ∧
    (r.target = path ++ "?" ++ writeQuery ps ∨ ps = [] ∧ r.target = path)

/-- No query that is written ends before its end. -/
theorem ne_hash_of_mem_writeQuery (ps : List (String × String)) :
    ∀ c ∈ (writeQuery ps).toList, c ≠ '#' := by
  have hencoded (s : String) : ∀ c ∈ (percentEncode s).toList, c ≠ '#' :=
    fun c hc => (inert_of_mem_percentEncode hc).2.2.2.1
  have hpair (p : String × String) : ∀ c ∈ (writePair p).toList, c ≠ '#' :=
    Text.forall_mem_append (Text.forall_mem_append (hencoded p.1) (by simp)) (hencoded p.2)
  induction ps with
  | nil => nofun
  | cons p ps ih =>
      cases ps with
      | nil => simpa [writeQuery] using hpair p
      | cons q ps =>
          rw [writeQuery_cons_cons]
          exact Text.forall_mem_append (Text.forall_mem_append (hpair p) (by simp)) ih

/-- The query of a request holds the pairs that it carries. -/
theorem Request.Carries.query_eq {r : Request} {ps : List (String × String)} (h : r.Carries ps) :
    r.query = writeQuery ps := by
  obtain ⟨path, hpath, htarget | ⟨rfl, htarget⟩⟩ := h
  · have hpart : ∀ c ∈ r.target.toList, c ≠ '#' := by
      rw [htarget]
      have hfront : ∀ c ∈ path.toList, c ≠ '#' := fun c hc => (hpath c hc).2
      exact Text.forall_mem_append (Text.forall_mem_append hfront (by simp))
        (ne_hash_of_mem_writeQuery ps)
    have hall : ∀ c ∈ r.target.toList, (c != '#') = true := fun c hc =>
      bne_iff_ne.mpr (hpart c hc)
    have hfront : ∀ c ∈ path.toList, (c != '?') = true := fun c hc => bne_iff_ne.mpr (hpath c hc).1
    rw [query, List.takeWhile_eq_self_iff.mpr hall, htarget, String.toList_append,
      String.toList_append, List.append_assoc, List.dropWhile_append_of_pos hfront]
    exact String.ofList_toList
  · have hnone : ∀ c ∈ r.target.toList.takeWhile (· != '#'), (c != '?') = true := by
      intro c hc
      rw [htarget] at hc
      exact bne_iff_ne.mpr (hpath c ((List.takeWhile_prefix _).subset hc)).1
    rw [query, List.dropWhile_eq_nil_iff.mpr hnone]
    rfl

end ClipRelay.Http
