import ClipRelay.Proofs.Json.Scalars

/-!
# ClipRelay.Proofs.Json.Records

Records survive JSON: a reader of records gets back what was written.

`Reads l r j a` says that the reader `r` takes the value `a` from the text of
`j`, wherever it stands in a text laid out by `l`.  A record reads its members
one after the other into a draft; `Fills` follows the draft through the members
that are written, and `Reads.record` puts the members together.
-/

namespace ClipRelay.Json

open Reader

variable {α σ : Type} {l : Layout}

/-! ## White space -/

theorem skipSpace_append {gap : Bytes} (h : gap.all isSpaceByte) (rest : Bytes) :
    skipSpace (gap ++ rest) = skipSpace rest :=
  List.dropWhile_append_of_pos (List.all_eq_true.mp h)

theorem skipSpace_cons {b : UInt8} (h : isSpaceByte b = false) (rest : Bytes) :
    skipSpace (b :: rest) = b :: rest := by
  simp [skipSpace, h]

/-- A number does not begin with white space. -/
theorem isSpaceByte_of_numeral {b : UInt8} (h : b = 0x2D ∨ isDigit b) :
    isSpaceByte b = false := by
  obtain rfl | h := h
  · rfl
  simp only [isDigit, Bool.and_eq_true, decide_eq_true_eq, UInt8.le_iff_toNat_le] at h
  simp only [isSpaceByte, Bool.or_eq_false_iff, beq_eq_false_iff_ne]
  refine ⟨⟨⟨?_, ?_⟩, ?_⟩, ?_⟩ <;> rintro rfl <;> simp at h

/-- A layout that puts nothing but white space between the parts of a value. -/
structure Spaced (l : Layout) : Prop where
  lineBreak : ∀ depth, (l.lineBreak depth).all isSpaceByte
  colon : ∃ gap, l.colon = 0x3A :: gap ∧ gap.all isSpaceByte

theorem spaced_compact : Spaced .compact := ⟨fun _ => rfl, [], rfl, rfl⟩

theorem spaced_pretty : Spaced .pretty where
  lineBreak depth := by simp [Layout.pretty, isSpaceByte]
  colon := ⟨[0x20], rfl, rfl⟩

/-! ## Values -/

/-- `r` takes `a` from the text of `j`, with white space in front and, behind it, a text
that may stand after a number. -/
def Reads (l : Layout) (r : Reader α) (j : Json) (a : α) : Prop :=
  ∀ (gap rest : Bytes) (depth : Nat), gap.all isSpaceByte → Ends rest →
    r (gap ++ (write l depth j ++ rest)) = .ok (a, rest)

theorem reads_string (s : String) : Reads l Reader.string (.string s) s := by
  intro gap rest depth hgap _
  have hquote : skipSpace (quote s ++ rest) =
      0x22 :: ((Bytes.ofText s).flatMap escapeByte ++ 0x22 :: rest) := by
    simp [quote, skipSpace, isSpaceByte]
  simp [write, scalar, Reader.string, skipSpace_append hgap, hquote, stringRest_escaped]

theorem nullable_of_value {r : Reader α} {b : UInt8} (h : b ≠ 0x6E) (hb : isSpaceByte b = false)
    {bs rest : Bytes} {a : α} (hr : r (b :: bs) = .ok (a, rest)) :
    nullable r (b :: bs) = .ok (some a, rest) := by
  simp [nullable, skipSpace_cons hb, h, hr, Except.map]

theorem nullable_skip {r : Reader α} {gap : Bytes} (h : gap.all isSpaceByte) (bs : Bytes) :
    nullable r (gap ++ bs) = nullable r bs := by
  simp [nullable, skipSpace_append h]

theorem reads_nullable_string (s : String) :
    Reads l (nullable Reader.string) (.string s) (some s) := by
  intro gap rest depth hgap hends
  have hread := reads_string (l := l) s [] rest depth rfl hends
  simp only [write, scalar, quote, List.nil_append, List.cons_append] at hread ⊢
  rw [nullable_skip hgap, nullable_of_value (by decide) rfl hread]

theorem int64_of_numeral? {b : UInt8} (hb : b = 0x2D ∨ isDigit b) {bs rest : Bytes} {n : Numeral}
    (hn : numeral? (b :: bs) = some (n, rest)) {i : Int64} (hi : n.int64? = some i) :
    int64 (b :: bs) = .ok (i, rest) := by
  simp [int64, skipSpace_cons (isSpaceByte_of_numeral hb), hb, hn, hi]

theorem int64_skip {gap : Bytes} (h : gap.all isSpaceByte) (bs : Bytes) :
    int64 (gap ++ bs) = int64 bs := by
  simp [int64, skipSpace_append h]

theorem int64?_decimal {n : Nat} (h : n < Nat.pow 2 63) :
    (⟨false, decimal n, none, none⟩ : Numeral).int64? = some (Int64.ofInt n) := by
  simp only [Numeral.int64?, digitsValue_decimal]
  simp [h]

theorem int64?_neg_decimal {n : Nat} (hpos : 0 < n) (h : n ≤ Nat.pow 2 63) :
    (⟨true, decimal n, none, none⟩ : Numeral).int64? = some (Int64.ofInt (-(n : Int))) := by
  simp only [Numeral.int64?, digitsValue_decimal]
  simp [hpos, h]

theorem reads_int64 (i : Int64) : Reads l int64 (.int i.toInt) i := by
  intro gap rest depth hgap hends
  rw [int64_skip hgap]
  simp only [write, scalar]
  obtain ⟨n, hn, hi, htext⟩ | ⟨n, hpos, hn, hi, htext⟩ := number_cases i
  · obtain ⟨b, ds, hds, hb, -⟩ := exists_decimal n
    have hnumeral := numeral?_decimal n hends
    have hvalue := int64?_decimal hn
    rw [htext]
    rw [hds, List.cons_append] at hnumeral ⊢
    rw [hi, hds] at hvalue
    exact int64_of_numeral? (.inr hb) hnumeral hvalue
  · have hvalue := int64?_neg_decimal hpos hn
    rw [hi] at hvalue
    rw [htext]
    exact int64_of_numeral? (.inl rfl) (numeral?_neg_decimal n hends) hvalue

/-! ## Members -/

theorem ends_cons {b : UInt8} (h : b = 0x2C ∨ b = 0x7D ∨ b = 0x5D ∨ isSpaceByte b)
    (rest : Bytes) : Ends (b :: rest) := by
  intro c hc
  obtain rfl : b = c := Option.some.inj hc
  simp only [isSpaceByte, Bool.or_eq_true, beq_iff_eq] at h
  obtain rfl | rfl | rfl | ((rfl | rfl) | rfl) | rfl := h <;> decide

theorem ends_append {gap : Bytes} (h : gap.all isSpaceByte) {rest : Bytes} (hrest : Ends rest) :
    Ends (gap ++ rest) := by
  cases gap with
  | nil => exact hrest
  | cons b gap =>
      have hb : isSpaceByte b := (List.all_eq_true.mp h) b List.mem_cons_self
      exact ends_cons (.inr (.inr (.inr hb))) _

/-- The draft of a record before and after members that are written: each of them is
known, was not read before, and is read from its value. -/
inductive Fills (l : Layout) (members : List (Member σ)) :
    List (String × Json) → σ → σ → Prop where
  | nil (s : σ) : Fills l members [] s s
  | cons {m : Member σ} {name : String} {j : Json} {ms : List (String × Json)} {s t u : σ}
      (hfind : members.find? (·.name == name) = some m) (hunread : m.isRead s = false)
      (hread : Reads l (m.read s) j t) (hrest : Fills l members ms t u) :
      Fills l members ((name, j) :: ms) s u

theorem Fills.append {members : List (Member σ)} {ms ns : List (String × Json)} {s t u : σ}
    (h : Fills l members ms s t) (h' : Fills l members ns t u) :
    Fills l members (ms ++ ns) s u := by
  induction h with
  | nil s => exact h'
  | cons hfind hunread hread hrest ih => exact .cons hfind hunread hread (ih h')

theorem Reads.named {r : Reader α} {j : Json} {a : α} (h : Reads l r j a) (name : String)
    (get : σ → Option α) (set : σ → α → σ) (s : σ) :
    Reads l ((Member.named name get set r).read s) j (set s a) := by
  intro gap rest depth hgap hends
  simp [Member.named, h gap rest depth hgap hends, Except.map]

/-- A member behind the first quotation mark of its name, and what follows it. -/
def memberText (l : Layout) (depth : Nat) (name : String) (j : Json) (rest : Bytes) : Bytes :=
  (Bytes.ofText name).flatMap escapeByte ++ 0x22 :: (l.colon ++ (write l depth j ++ rest))

/-- What follows the value of a member: the members `ms`, the end of the object, and `rest`. -/
def memberTail (l : Layout) (depth : Nat) (ms : List (String × Json)) (rest : Bytes) : Bytes :=
  writeMembers l (depth + 1) ms ++ (l.lineBreak depth ++ 0x7D :: rest)

theorem ends_memberTail (hl : Spaced l) (depth : Nat) (ms : List (String × Json)) (rest : Bytes) :
    Ends (memberTail l depth ms rest) := by
  cases ms with
  | nil =>
      simp only [memberTail, writeMembers, List.nil_append]
      exact ends_append (hl.lineBreak depth) (ends_cons (by simp) rest)
  | cons m ms =>
      obtain ⟨name, j⟩ := m
      simp only [memberTail, writeMembers, List.cons_append]
      exact ends_cons (by simp) _

/-- The value of a member, behind its name. -/
theorem memberValue_written (hl : Spaced l) {members : List (Member σ)} {m : Member σ}
    {name : String} {j : Json} {s t : σ} (hfind : members.find? (·.name == name) = some m)
    (hunread : m.isRead s = false) (hread : Reads l (m.read s) j t) (depth : Nat) {rest : Bytes}
    (hends : Ends rest) :
    memberValue members name s (l.colon ++ (write l depth j ++ rest)) = .ok (t, rest) := by
  obtain ⟨gap, hcolon, hgap⟩ := hl.colon
  rw [hcolon, List.cons_append, memberValue]
  simp only [hfind, hunread]
  rw [skipSpace_cons rfl]
  exact hread gap rest depth hgap hends

theorem nextMember_first {gap : Bytes} (h : gap.all isSpaceByte) (rest : Bytes) :
    nextMember true (gap ++ 0x22 :: rest) = .ok (some rest) := by
  simp [nextMember, skipSpace_append h, skipSpace_cons (b := 0x22) rfl]

theorem nextMember_later {gap : Bytes} (h : gap.all isSpaceByte) (rest : Bytes) :
    nextMember false (0x2C :: (gap ++ 0x22 :: rest)) = .ok (some rest) := by
  simp [nextMember, skipSpace_append h, skipSpace_cons (b := 0x22) rfl,
    skipSpace_cons (b := 0x2C) rfl]

theorem nextMember_end {gap : Bytes} (h : gap.all isSpaceByte) (first : Bool) (rest : Bytes) :
    nextMember first (gap ++ 0x7D :: rest) = .ok none := by
  simp [nextMember, skipSpace_append h, skipSpace_cons (b := 0x7D) rfl]

/-- One member, and then the others. -/
theorem objectMembers_member (hl : Spaced l) {members : List (Member σ)} {m : Member σ}
    {name : String} {j : Json} {s t : σ} (hfind : members.find? (·.name == name) = some m)
    (hunread : m.isRead s = false) (hread : Reads l (m.read s) j t) {first : Bool}
    {before rest : Bytes} {depth : Nat} (hends : Ends rest)
    (hnext : nextMember first before = .ok (some (memberText l depth name j rest))) (fuel : Nat) :
    objectMembers members (fuel + 1) first s before = objectMembers members fuel false t rest := by
  rw [objectMembers, hnext]
  simp only [memberText, stringRest_escaped,
    memberValue_written hl hfind hunread hread depth hends]

/-- The members after the first. -/
theorem objectMembers_tail (hl : Spaced l) {members : List (Member σ)}
    {ms : List (String × Json)} {s u : σ} (h : Fills l members ms s u) (depth : Nat) (rest : Bytes)
    {fuel : Nat} (hfuel : ms.length < fuel) :
    objectMembers members fuel false s (memberTail l depth ms rest) =
      .ok (u, l.lineBreak depth ++ 0x7D :: rest) := by
  induction h generalizing fuel with
  | nil s =>
      obtain ⟨fuel, rfl⟩ := Nat.exists_eq_add_one_of_ne_zero (Nat.ne_zero_of_lt hfuel)
      simp only [memberTail, writeMembers, List.nil_append]
      rw [objectMembers, nextMember_end (hl.lineBreak depth)]
  | @cons m name j ms s t u hfind hunread hread hrest ih =>
      obtain ⟨fuel, rfl⟩ := Nat.exists_eq_add_one_of_ne_zero (Nat.ne_zero_of_lt hfuel)
      rw [objectMembers_member hl hfind hunread hread (ends_memberTail hl depth ms rest)]
      · exact ih (by simpa using hfuel)
      · have hnext := nextMember_later (hl.lineBreak (depth + 1))
          (memberText l (depth + 1) name j (memberTail l depth ms rest))
        simpa [memberTail, memberText, writeMembers, quote] using hnext

theorem length_le_length_writeMembers (l : Layout) (depth : Nat) (ms : List (String × Json)) :
    ms.length ≤ (writeMembers l depth ms).length := by
  induction ms with
  | nil => simp
  | cons m ms ih =>
      obtain ⟨name, j⟩ := m
      simp only [writeMembers, List.length_cons, List.length_append]
      omega

/-- All members, behind the opening brace. -/
theorem objectMembers_written (hl : Spaced l) {members : List (Member σ)}
    {name : String} {j : Json} {ms : List (String × Json)} {s u : σ}
    (h : Fills l members ((name, j) :: ms) s u) (depth : Nat) (rest : Bytes) {fuel : Nat}
    (hfuel : ms.length + 1 < fuel) :
    objectMembers members fuel true s
        (l.lineBreak (depth + 1) ++ 0x22 ::
          memberText l (depth + 1) name j (memberTail l depth ms rest)) =
      .ok (u, l.lineBreak depth ++ 0x7D :: rest) := by
  obtain ⟨fuel, rfl⟩ := Nat.exists_eq_add_one_of_ne_zero (Nat.ne_zero_of_lt hfuel)
  cases h with
  | cons hfind hunread hread hrest =>
      rw [objectMembers_member hl hfind hunread hread (ends_memberTail hl depth ms rest)
        (nextMember_first (hl.lineBreak (depth + 1)) _)]
      exact objectMembers_tail hl hrest depth rest (by omega)

theorem complete_written {finish : σ → Option α} {s : σ} {a : α} (hfinish : finish s = some a)
    {gap : Bytes} (hgap : gap.all isSpaceByte) (rest : Bytes) :
    complete finish 0x7D s (gap ++ 0x7D :: rest) = .ok (a, rest) := by
  simp [complete, hfinish, skipSpace_append hgap, skipSpace_cons (b := 0x7D) rfl]

/-- **Records are read back**: if a draft can be led through the members that are written
and is complete then, the record is read from its text. -/
theorem Reads.record (hl : Spaced l) {members : List (Member σ)} {start s : σ}
    {finish : σ → Option α} {a : α} {ms : List (String × Json)}
    (hfills : Fills l members ms start s) (hfinish : finish s = some a) :
    Reads l (record members start finish) (.object ms) a := by
  intro gap rest depth hgap hends
  rw [Reader.record, skipSpace_append hgap]
  cases ms with
  | nil =>
      cases hfills
      have hnone : nextMember true (0x7D :: rest) = .ok none :=
        nextMember_end (List.all_nil (f := isSpaceByte)) true rest
      have hcomplete : complete finish 0x7D start (0x7D :: rest) = .ok (a, rest) :=
        complete_written hfinish (List.all_nil (f := isSpaceByte)) rest
      simp [write, skipSpace_cons (b := 0x7B) rfl, objectMembers, hnone, hcomplete]
  | cons m ms =>
      obtain ⟨name, j⟩ := m
      have htext : write l depth (.object ((name, j) :: ms)) ++ rest =
          0x7B :: (l.lineBreak (depth + 1) ++ 0x22 ::
            memberText l (depth + 1) name j (memberTail l depth ms rest)) := by
        simp [write, memberTail, memberText, quote]
      have hfuel : ms.length + 1 < (l.lineBreak (depth + 1) ++ 0x22 ::
          memberText l (depth + 1) name j (memberTail l depth ms rest)).length + 1 := by
        have hms := length_le_length_writeMembers l (depth + 1) ms
        simp only [memberText, memberTail, List.length_append, List.length_cons]
        omega
      rw [htext, skipSpace_cons rfl]
      simp only [objectMembers_written hl hfills depth rest hfuel,
        complete_written hfinish (hl.lineBreak depth)]

/-! ## Whole texts -/

theorem Reads.whole {r : Reader α} {j : Json} {a : α} (h : Reads l r j a) :
    r.whole (write l 0 j) = .ok a := by
  have hread := h [] [] 0 rfl (by simp [Ends])
  simp only [List.nil_append, List.append_nil] at hread
  simp [Reader.whole, hread, skipSpace]

end ClipRelay.Json
