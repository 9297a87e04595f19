import ClipRelay.Binary.Format
import Mathlib.Algebra.Group.Nat.Defs

/-!
# ClipRelay.Proofs.Binary.Exact

Exact formats: reading and writing are inverse in both directions.

`f.Exact fits` says of a format that it reads back every value that `fits`,
whatever follows it, and that whatever it reads is the written form of a value
that fits.  Every atom is exact, and every way to combine formats keeps
exactness:

* `exact_nat`, `exact_bytes`, `exact_text`, `exact_uuid` — the atoms;
* `Exact.iso`, `Exact.seq`, `Exact.refine`, `Exact.option`, `Exact.list`,
  `exact_choice` — the combinations.

An exact format has one written form for each value, and none of them is the
beginning of another (`Exact.decode_eq_ok_iff`, `Exact.eq_of_isPrefix`).
-/

namespace ClipRelay.Binary.Format

variable {α β : Type}

/-- The format reads back what it writes of values that fit, and reads nothing
but what it writes of them. -/
structure Exact (f : Format α) (fits : α → Prop) : Prop where
  decode_encode_append : ∀ a rest, fits a → f.decode (f.encode a ++ rest) = .ok (a, rest)
  encode_append_of_decode :
    ∀ bs a rest, f.decode bs = .ok (a, rest) → fits a ∧ f.encode a ++ rest = bs

/-! ## Little-endian numbers -/

@[simp] theorem length_littleEndian (width n : Nat) : (littleEndian width n).length = width := by
  induction width generalizing n with
  | zero => rfl
  | succ width ih => simp [littleEndian, ih]

/-- A number that fits its width is read back from its bytes. -/
theorem ofLittleEndian_littleEndian {width n : Nat} (h : n < 256 ^ width) :
    ofLittleEndian (littleEndian width n) = n := by
  induction width generalizing n with
  | zero => simp [littleEndian, ofLittleEndian]; omega
  | succ width ih =>
      have hdiv : n / 256 < 256 ^ width := by
        rw [Nat.div_lt_iff_lt_mul (by decide), ← Nat.pow_succ]
        exact h
      simp only [littleEndian, ofLittleEndian, ih hdiv, UInt8.toNat_ofNat']
      omega

/-- A number read from bytes fits their width. -/
theorem ofLittleEndian_lt (bs : Bytes) : ofLittleEndian bs < 256 ^ bs.length := by
  induction bs with
  | nil => simp [ofLittleEndian]
  | cons b bs ih =>
      have hb : b.toNat < 256 := b.toNat_lt
      rw [ofLittleEndian, List.length_cons, Nat.pow_succ]
      omega

/-- Bytes are the written form of the number they are read as. -/
theorem littleEndian_ofLittleEndian (bs : Bytes) :
    littleEndian bs.length (ofLittleEndian bs) = bs := by
  induction bs with
  | nil => rfl
  | cons b bs ih =>
      have hb : b.toNat < 256 := b.toNat_lt
      have hlow : UInt8.ofNat (b.toNat + 256 * ofLittleEndian bs) = b := by
        apply UInt8.toNat_inj.mp
        rw [UInt8.toNat_ofNat']
        omega
      have hhigh : (b.toNat + 256 * ofLittleEndian bs) / 256 = ofLittleEndian bs := by omega
      rw [List.length_cons, ofLittleEndian, littleEndian, hlow, hhigh, ih]

/-! ## Atoms -/

theorem take_append (front rest : Bytes) :
    take front.length (front ++ rest) = .ok (front, rest) := by
  rw [take, Bytes.splitFront?_append]

theorem append_of_take {n : Nat} {bs front rest : Bytes} (h : take n bs = .ok (front, rest)) :
    front.length = n ∧ front ++ rest = bs := by
  rw [take] at h
  cases hs : bs.splitFront? n with
  | none => simp only [hs] at h; contradiction
  | some split =>
      simp only [hs] at h
      cases h
      exact (Bytes.append_of_splitFront? hs).symm

theorem exact_nat (width : Nat) : (nat width).Exact (· < 256 ^ width) where
  decode_encode_append n rest h := by
    have ht := take_append (littleEndian width n) rest
    rw [length_littleEndian] at ht
    simp only [nat, ht, Except.map, ofLittleEndian_littleEndian h]
  encode_append_of_decode bs n rest h := by
    simp only [nat] at h ⊢
    cases ht : take width bs with
    | error e => simp only [ht, Except.map] at h; contradiction
    | ok split =>
        obtain ⟨front, after⟩ := split
        simp only [ht, Except.map] at h
        cases h
        obtain ⟨hlen, happ⟩ := append_of_take ht
        subst hlen
        exact ⟨ofLittleEndian_lt front, by rw [littleEndian_ofLittleEndian, happ]⟩

/-- A length that can be written. -/
abbrev LengthFits (n : Nat) : Prop := n < 2 ^ 64

theorem exact_length : length.Exact LengthFits := exact_nat 8

theorem exact_bytes : bytes.Exact fun bs => LengthFits bs.length where
  decode_encode_append bs rest h := by
    have hl := exact_length.decode_encode_append bs.length (bs ++ rest) h
    simp only [bytes, List.append_assoc, hl, take_append]
  encode_append_of_decode input bs rest h := by
    simp only [bytes] at h ⊢
    cases hl : length.decode input with
    | error e => simp only [hl] at h; contradiction
    | ok read =>
        obtain ⟨n, after⟩ := read
        simp only [hl] at h
        obtain ⟨hn, happ⟩ := exact_length.encode_append_of_decode _ _ _ hl
        obtain ⟨hlen, hafter⟩ := append_of_take h
        subst hlen
        exact ⟨hn, by rw [List.append_assoc, hafter, happ]⟩

/-! ## Combination -/

namespace Exact

/-- The same values may be singled out in other words. -/
theorem congr {f : Format α} {P Q : α → Prop} (h : f.Exact P) (hPQ : ∀ a, P a ↔ Q a) :
    f.Exact Q := by
  have heq : P = Q := funext fun a => propext (hPQ a)
  rwa [heq] at h

theorem iso {f : Format α} {P : α → Prop} (h : f.Exact P) {make : α → β} {parts : β → α}
    (make_parts : ∀ b, make (parts b) = b) (parts_make : ∀ a, P a → parts (make a) = a) :
    (f.iso make parts).Exact fun b => P (parts b) where
  decode_encode_append b rest hb := by
    simp only [Format.iso, h.decode_encode_append (parts b) rest hb, Except.map, make_parts]
  encode_append_of_decode bs b rest hd := by
    simp only [Format.iso] at hd ⊢
    cases ha : f.decode bs with
    | error e => simp only [ha, Except.map] at hd; contradiction
    | ok read =>
        obtain ⟨a, after⟩ := read
        simp only [ha, Except.map] at hd
        cases hd
        obtain ⟨hP, happ⟩ := h.encode_append_of_decode _ _ _ ha
        rw [parts_make a hP]
        exact ⟨hP, happ⟩

theorem seq {f : Format α} {g : Format β} {P : α → Prop} {Q : β → Prop} (hf : f.Exact P)
    (hg : g.Exact Q) : (f.seq g).Exact fun p => P p.1 ∧ Q p.2 where
  decode_encode_append p rest hp := by
    obtain ⟨a, b⟩ := p
    have ha := hf.decode_encode_append a (g.encode b ++ rest) hp.1
    simp only [Format.seq, List.append_assoc, ha, hg.decode_encode_append b rest hp.2, Except.map]
  encode_append_of_decode bs p rest hd := by
    simp only [Format.seq] at hd ⊢
    cases ha : f.decode bs with
    | error e => simp only [ha] at hd; contradiction
    | ok read =>
        obtain ⟨a, after⟩ := read
        simp only [ha] at hd
        cases hb : g.decode after with
        | error e => simp only [hb, Except.map] at hd; contradiction
        | ok read' =>
            obtain ⟨b, after'⟩ := read'
            simp only [hb, Except.map] at hd
            cases hd
            obtain ⟨hP, happ⟩ := hf.encode_append_of_decode _ _ _ ha
            obtain ⟨hQ, happ'⟩ := hg.encode_append_of_decode _ _ _ hb
            exact ⟨⟨hP, hQ⟩, by rw [List.append_assoc, happ', happ]⟩

theorem refine {f : Format α} {P : α → Prop} (h : f.Exact P) {e : DecodeError}
    {make? : α → Option β} {parts : β → α} (make?_parts : ∀ b, make? (parts b) = some b)
    (parts_of_make? : ∀ a b, make? a = some b → parts b = a) :
    (f.refine e make? parts).Exact fun b => P (parts b) where
  decode_encode_append b rest hb := by
    simp only [Format.refine, h.decode_encode_append (parts b) rest hb, make?_parts]
  encode_append_of_decode bs b rest hd := by
    simp only [Format.refine] at hd ⊢
    cases ha : f.decode bs with
    | error e => simp only [ha] at hd; contradiction
    | ok read =>
        obtain ⟨a, after⟩ := read
        simp only [ha] at hd
        cases hm : make? a with
        | none => simp only [hm] at hd; contradiction
        | some b' =>
            simp only [hm] at hd
            cases hd
            obtain ⟨hP, happ⟩ := h.encode_append_of_decode _ _ _ ha
            rw [parts_of_make? a b hm]
            exact ⟨hP, happ⟩

theorem option {f : Format α} {P : α → Prop} (h : f.Exact P) :
    f.option.Exact fun o => ∀ a ∈ o, P a where
  decode_encode_append o rest ho := by
    cases o with
    | none => rfl
    | some a =>
        have ha := h.decode_encode_append a rest (ho a rfl)
        simp [Format.option, ha, Except.map]
  encode_append_of_decode bs o rest hd := by
    cases bs with
    | nil => simp only [Format.option] at hd; contradiction
    | cons tag bs =>
        simp only [Format.option] at hd
        by_cases h0 : tag = 0
        · rw [if_pos h0] at hd
          cases hd
          exact ⟨nofun, by rw [h0]; rfl⟩
        · rw [if_neg h0] at hd
          by_cases h1 : tag = 1
          · rw [if_pos h1] at hd
            cases ha : f.decode bs with
            | error e => simp only [ha, Except.map] at hd; contradiction
            | ok read =>
                obtain ⟨a, after⟩ := read
                simp only [ha, Except.map] at hd
                cases hd
                obtain ⟨hP, happ⟩ := h.encode_append_of_decode _ _ _ ha
                refine ⟨fun a' ha' => ?_, ?_⟩
                · cases ha'; exact hP
                · rw [h1, ← happ]; rfl
          · rw [if_neg h1] at hd
            contradiction

/-- The members of a list are read back one after the other. -/
theorem decodeMany_append {f : Format α} {P : α → Prop} (h : f.Exact P) (as : List α)
    (rest : Bytes) (has : ∀ a ∈ as, P a) :
    decodeMany f as.length (as.flatMap f.encode ++ rest) = .ok (as, rest) := by
  induction as with
  | nil => rfl
  | cons a as ih =>
      have ha := h.decode_encode_append a (as.flatMap f.encode ++ rest) (has a List.mem_cons_self)
      have hih := ih fun b hb => has b (List.mem_cons_of_mem a hb)
      simp only [List.length_cons, List.flatMap_cons, List.append_assoc, decodeMany, ha, hih,
        Except.map]

/-- What is read as a row of values is the written form of that row. -/
theorem append_of_decodeMany {f : Format α} {P : α → Prop} (h : f.Exact P) {n : Nat} {bs : Bytes}
    {as : List α} {rest : Bytes} (hd : decodeMany f n bs = .ok (as, rest)) :
    as.length = n ∧ (∀ a ∈ as, P a) ∧ as.flatMap f.encode ++ rest = bs := by
  induction n generalizing bs as with
  | zero =>
      cases hd
      exact ⟨rfl, nofun, rfl⟩
  | succ n ih =>
      rw [decodeMany] at hd
      cases ha : f.decode bs with
      | error e => simp only [ha] at hd; contradiction
      | ok read =>
          obtain ⟨a, after⟩ := read
          simp only [ha] at hd
          cases hm : decodeMany f n after with
          | error e => simp only [hm, Except.map] at hd; contradiction
          | ok read' =>
              obtain ⟨as', after'⟩ := read'
              simp only [hm, Except.map] at hd
              cases hd
              obtain ⟨hP, happ⟩ := h.encode_append_of_decode _ _ _ ha
              obtain ⟨hlen, hPs, happ'⟩ := ih hm
              refine ⟨by rw [List.length_cons, hlen], ?_, ?_⟩
              · intro b hb
                rcases List.mem_cons.mp hb with rfl | hb
                · exact hP
                · exact hPs b hb
              · rw [List.flatMap_cons, List.append_assoc, happ', happ]

theorem list {f : Format α} {P : α → Prop} (h : f.Exact P) :
    (Format.list f).Exact fun as => LengthFits as.length ∧ ∀ a ∈ as, P a where
  decode_encode_append as rest has := by
    have hl := exact_length.decode_encode_append as.length (as.flatMap f.encode ++ rest) has.1
    simp only [Format.list, List.append_assoc, hl, h.decodeMany_append as rest has.2]
  encode_append_of_decode bs as rest hd := by
    simp only [Format.list] at hd ⊢
    cases hl : length.decode bs with
    | error e => simp only [hl] at hd; contradiction
    | ok read =>
        obtain ⟨n, after⟩ := read
        simp only [hl] at hd
        obtain ⟨hn, happ⟩ := exact_length.encode_append_of_decode _ _ _ hl
        obtain ⟨hlen, hPs, happ'⟩ := h.append_of_decodeMany hd
        subst hlen
        exact ⟨⟨hn, hPs⟩, by rw [List.append_assoc, happ', happ]⟩

end Exact

/-! ## Choices -/

/-- A choice is exact if every body is read back under its own number, and
under each number nothing else is read. -/
theorem exact_choice {number : α → Nat} {encodeBody : α → Bytes}
    {body : Nat → Bytes → Except DecodeError (α × Bytes)} {fits : α → Prop}
    (number_lt : ∀ a, number a < 256 ^ 4)
    (body_append : ∀ a rest, fits a → body (number a) (encodeBody a ++ rest) = .ok (a, rest))
    (append_of_body : ∀ n bs a rest, body n bs = .ok (a, rest) →
      number a = n ∧ fits a ∧ encodeBody a ++ rest = bs) :
    (choice number encodeBody body).Exact fits where
  decode_encode_append a rest ha := by
    have hn := (exact_nat 4).decode_encode_append (number a) (encodeBody a ++ rest) (number_lt a)
    simp only [choice, List.append_assoc, hn, body_append a rest ha]
  encode_append_of_decode bs a rest hd := by
    simp only [choice] at hd ⊢
    cases hn : (nat 4).decode bs with
    | error e => simp only [hn] at hd; contradiction
    | ok read =>
        obtain ⟨n, after⟩ := read
        simp only [hn] at hd
        obtain ⟨-, happ⟩ := (exact_nat 4).encode_append_of_decode _ _ _ hn
        obtain ⟨hnum, hfits, hbody⟩ := append_of_body n after a rest hd
        exact ⟨hfits, by rw [hnum, List.append_assoc, hbody, happ]⟩

theorem Exact.alternative_append {f : Format α} {P : α → Prop} (h : f.Exact P) (make : α → β)
    (a : α) (rest : Bytes) (ha : P a) :
    alternative f make (f.encode a ++ rest) = .ok (make a, rest) := by
  rw [alternative, h.decode_encode_append a rest ha]
  rfl

/-- An alternative reads the written form of the value that it holds. -/
theorem Exact.append_of_alternative {f : Format α} {P : α → Prop} (h : f.Exact P) {make : α → β}
    {bs : Bytes} {b : β} {rest : Bytes} (hd : alternative f make bs = .ok (b, rest)) :
    ∃ a, make a = b ∧ P a ∧ f.encode a ++ rest = bs := by
  rw [alternative] at hd
  cases ha : f.decode bs with
  | error e => simp only [ha, Except.map] at hd; contradiction
  | ok read =>
      obtain ⟨a, after⟩ := read
      simp only [ha, Except.map] at hd
      cases hd
      exact ⟨a, rfl, h.encode_append_of_decode _ _ _ ha⟩

theorem eq_of_constant {a b : β} {bs rest : Bytes} (h : constant a bs = .ok (b, rest)) :
    a = b ∧ rest = bs := by
  cases h
  exact ⟨rfl, rfl⟩

theorem unknown_ne_ok {bs rest : Bytes} {a : α} : unknown bs ≠ .ok (a, rest) := by
  intro h
  cases h

/-! ## Numbers, texts and identifiers -/

theorem exact_int32 : int32.Exact fun _ => True := by
  refine ((exact_nat 4).iso ?_ ?_).congr fun i => ?_
  · intro i
    simp
  · intro n hn
    simp only [UInt32.toUInt32_toInt32]
    exact UInt32.toNat_ofNat_of_lt' hn
  · exact iff_true_intro i.toUInt32.toNat_lt

theorem exact_int64 : int64.Exact fun _ => True := by
  refine ((exact_nat 8).iso ?_ ?_).congr fun i => ?_
  · intro i
    simp
  · intro n hn
    simp only [UInt64.toUInt64_toInt64]
    exact UInt64.toNat_ofNat_of_lt' hn
  · exact iff_true_intro i.toUInt64.toNat_lt

theorem exact_uint64 : uint64.Exact fun _ => True := by
  refine ((exact_nat 8).iso ?_ ?_).congr fun i => ?_
  · intro i
    simp
  · intro n hn
    exact UInt64.toNat_ofNat_of_lt' hn
  · exact iff_true_intro i.toNat_lt

theorem exact_text : text.Exact fun s => LengthFits s.utf8ByteSize := by
  refine (exact_bytes.refine Bytes.toText?_ofText fun bs s h => ?_).congr fun s => ?_
  · exact Bytes.ofText_of_toText? h
  · rw [Bytes.length_ofText]

theorem exact_uuid : uuid.Exact fun _ => True := by
  refine (exact_bytes.refine Uuid.ofBytes?_octets fun bs u h => ?_).congr fun u => ?_
  · exact Uuid.octets_of_ofBytes? h
  · rw [u.length_octets]
    decide

/-! ## What exactness means for whole inputs -/

variable {f : Format α} {fits : α → Prop}

/-- A value is read from the front of just those inputs that begin with its
written form. -/
theorem Exact.decode_eq_ok_iff (h : f.Exact fits) {bs rest : Bytes} {a : α} :
    f.decode bs = .ok (a, rest) ↔ fits a ∧ f.encode a ++ rest = bs := by
  constructor
  · exact h.encode_append_of_decode bs a rest
  · rintro ⟨ha, rfl⟩
    exact h.decode_encode_append a rest ha

/-- The written form of a value is not the beginning of another's. -/
theorem Exact.eq_of_isPrefix (h : f.Exact fits) {a b : α} (ha : fits a) (hb : fits b)
    (hp : f.encode a <+: f.encode b) : a = b := by
  obtain ⟨rest, hrest⟩ := hp
  have hda := h.decode_encode_append a rest ha
  have hdb := h.decode_encode_append b [] hb
  rw [List.append_nil, ← hrest, hda] at hdb
  cases hdb
  rfl

end ClipRelay.Binary.Format
