import ClipRelay.Hex

/-!
# ClipRelay.Uuid

Universally unique identifiers: sixteen bytes, with their text forms.

They are written hyphenated in lower case, or as 32 plain digits inside item
ids.  Read are the hyphenated form, alone, in braces or after `urn:uuid:`, and
the 32 plain digits, all in either case.
-/

namespace ClipRelay

/-- A universally unique identifier. -/
structure Uuid where
  octets : Bytes
  length_octets : octets.length = 16 := by decide
deriving DecidableEq

namespace Uuid

/-- The identifier whose bytes are all zero; it stands for a missing one. -/
def nil : Uuid where
  octets := List.replicate 16 0

instance : Inhabited Uuid := ⟨nil⟩

/-- Whether the identifier is `nil`. -/
def isNil (u : Uuid) : Bool := decide (u = nil)

/-- The identifier with these bytes, if there are sixteen. -/
def ofBytes? (bs : Bytes) : Option Uuid :=
  if h : bs.length = 16 then some ⟨bs, h⟩ else none

@[simp] theorem ofBytes?_octets (u : Uuid) : ofBytes? u.octets = some u := by
  simp [ofBytes?, u.length_octets]

theorem octets_of_ofBytes? {bs : Bytes} {u : Uuid} (h : ofBytes? bs = some u) : u.octets = bs := by
  unfold ofBytes? at h; split at h
  · cases h; rfl
  · cases h

/-! ## Text -/

/-- The 32 digits of an identifier. -/
def simple (u : Uuid) : String := Hex.encode .lower u.octets

theorem simple_injective : Function.Injective simple := by
  intro u v h
  cases u
  cases v
  simpa using Hex.encode_injective .lower h

/-- The lengths of the digit groups of the hyphenated form. -/
def groups : List Nat := [8, 4, 4, 4, 12]

/-- The hyphenated form: groups of 8, 4, 4, 4 and 12 digits. -/
def hyphenated (u : Uuid) : String :=
  let rec join : List Nat → List Char → List Char
    | [], _ => []
    | [n], cs => cs.take n
    | n :: ns, cs => cs.take n ++ '-' :: join ns (cs.drop n)
  String.ofList (join groups (Hex.chars .lower u.octets))

/-- The digits of a hyphenated text: its length and the places of its four
hyphens are fixed, and whatever stands elsewhere is left for the digit reader. -/
def hyphenatedDigits? (cs : List Char) : Option (List Char) :=
  let rec go : List Nat → List Char → Option (List Char)
    | [], rest => if rest = [] then some [] else none
    | [n], rest => if rest.length = n then some rest else none
    | n :: ns, rest =>
      match rest.drop n with
      | '-' :: after => (go ns after).map (rest.take n ++ ·)
      | _ => none
  go groups cs

/-- Reads any of the accepted forms. -/
def parse? (s : String) : Option Uuid :=
  let cs := s.toList
  let digits :=
    if cs.length = 32 then some cs
    else if cs.length = 38 ∧ cs.head? = some '\x7b' ∧ cs.getLast? = some '\x7d' then
      hyphenatedDigits? (cs.tail.dropLast)
    else if cs.length = 45 ∧ (cs.take 9).map Char.toLower = "urn:uuid:".toList then
      hyphenatedDigits? (cs.drop 9)
    else hyphenatedDigits? cs
  digits.bind fun ds => (Hex.readChars [] ds).bind ofBytes?

/-! ## Reading undoes writing -/

/-- The hyphens stand between the groups. -/
theorem length_join {ns : List Nat} {cs : List Char} (h : ns.foldr (· + ·) 0 = cs.length)
    (hns : ns ≠ []) :
    (hyphenated.join ns cs).length + 1 = cs.length + ns.length := by
  induction ns generalizing cs with
  | nil => exact absurd rfl hns
  | cons n ns ih =>
      cases ns with
      | nil =>
          have hn : n = cs.length := h
          simp [hyphenated.join, hn]
      | cons m ns =>
          rw [List.foldr_cons] at h
          have hsum : (m :: ns).foldr (· + ·) 0 = (cs.drop n).length := by
            rw [List.length_drop]
            omega
          have hrest := ih hsum nofun
          rw [List.length_drop] at hrest
          simp only [hyphenated.join, List.length_append, List.length_cons, List.length_take]
            at hrest ⊢
          omega

/-- The digits are found again between the hyphens. -/
theorem go_join {ns : List Nat} {cs : List Char} (h : ns.foldr (· + ·) 0 = cs.length) :
    hyphenatedDigits?.go ns (hyphenated.join ns cs) = some cs := by
  fun_induction hyphenated.join ns cs with
  | case1 cs =>
      obtain rfl : cs = [] := List.eq_nil_of_length_eq_zero h.symm
      rfl
  | case2 n cs =>
      have hn : n = cs.length := h
      simp [hyphenatedDigits?.go, hn]
  | case3 n ns cs hns ih =>
      rw [List.foldr_cons] at h
      have hlength : (cs.take n).length = n := by
        rw [List.length_take]
        omega
      have hrest := ih (by rw [List.length_drop]; omega)
      simp [hyphenatedDigits?.go, List.drop_left' hlength, List.take_left' hlength, hrest]

/-- An identifier is read from its hyphenated form. -/
theorem parse?_hyphenated (u : Uuid) : parse? u.hyphenated = some u := by
  have hsum : groups.foldr (· + ·) 0 = (Hex.chars .lower u.octets).length := by
    rw [Hex.length_chars, u.length_octets]
    rfl
  have hlength : u.hyphenated.toList.length = 36 := by
    have hjoin := length_join hsum (List.cons_ne_nil _ _)
    rw [← hsum] at hjoin
    have hall : groups.foldr (· + ·) 0 + groups.length = 37 := rfl
    rw [hyphenated, String.toList_ofList]
    omega
  have hdigits : hyphenatedDigits? u.hyphenated.toList = some (Hex.chars .lower u.octets) := by
    rw [hyphenated, String.toList_ofList]
    exact go_join hsum
  simp [parse?, hlength, hdigits, Hex.readChars_chars]

end Uuid

end ClipRelay
