import ClipRelay.Json.Text

/-!
# ClipRelay.Json.Reader

Reading typed values straight from JSON text.

A reader takes a value off the front of the text.  It fails in one of two ways:
the text is `malformed`, so no JSON; or it is `mismatched`, JSON so far but not
of the wanted shape.  Text is read from left to right and the first failure
counts, so a wrong shape in front of a syntax error is a wrong shape.

Readers are strict.  A record names its members at most once, an integer is
written as an integer, and a string that is kept is valid Unicode.  Members
that a record does not know are skipped: they must follow the grammar, but may
nest to any depth and hold any number.  A record may also be written as an
array of its members in order.
-/

namespace ClipRelay.Json

/-- Why a text is not the JSON form of a value. -/
inductive Fault where
  | malformed
  | mismatched
deriving DecidableEq, Repr

/-- Takes a value off the front of a text. -/
abbrev Reader (α : Type) := StateT Bytes (Except Fault) α

namespace Reader

variable {α : Type}

/-! ## Tokens -/

/-- The white space of JSON. -/
def isSpaceByte (b : UInt8) : Bool := b == 0x20 || b == 0x0A || b == 0x0D || b == 0x09

/-- The text without white space in front. -/
def skipSpace (bs : Bytes) : Bytes := bs.dropWhile isSpaceByte

/-- Passes over exactly these bytes. -/
def expect (bytes : Bytes) : Reader Unit := fun bs =>
  if bs.take bytes.length = bytes then .ok ((), bs.drop bytes.length) else .error .malformed

/-- Whether a byte is a decimal digit. -/
def isDigit (b : UInt8) : Bool := 0x30 ≤ b && b ≤ 0x39

/-- The value of a hexadecimal digit. -/
def hexValue? (b : UInt8) : Option Nat := (Hex.value? (Char.ofNat b.toNat)).map (·.toNat)

/-- The value of four hexadecimal digits. -/
def hexUnit? (a b c d : UInt8) : Option Nat :=
  match hexValue? a, hexValue? b, hexValue? c, hexValue? d with
  | some a, some b, some c, some d => some (((a * 16 + b) * 16 + c) * 16 + d)
  | _, _, _, _ => none

/-! ### Strings -/

/-- The character that a one-letter escape stands for. -/
def shortEscape? (b : UInt8) : Option UInt8 :=
  if b = 0x22 then some 0x22
  else if b = 0x5C then some 0x5C
  else if b = 0x2F then some 0x2F
  else if b = 0x62 then some 0x08
  else if b = 0x66 then some 0x0C
  else if b = 0x6E then some 0x0A
  else if b = 0x72 then some 0x0D
  else if b = 0x74 then some 0x09
  else none

/-- Splits the text after an opening quotation mark at the closing one.  Control
characters must be escaped.  `acc` holds the bytes so far, last first. -/
def rawString (acc : Bytes) : Bytes → Except Fault (Bytes × Bytes)
  | [] => .error .malformed
  | [b] => if b = 0x22 then .ok (acc.reverse, []) else .error .malformed
  | b :: c :: rest =>
    if b = 0x22 then .ok (acc.reverse, c :: rest)
    else if b = 0x5C then rawString (c :: b :: acc) rest
    else if b < 0x20 then .error .malformed
    else rawString (b :: acc) (c :: rest)

/-- Whether the escapes of a string follow the grammar. -/
def escapesValid : Bytes → Bool
  | [] => true
  | 0x5C :: 0x75 :: a :: b :: c :: d :: rest => (hexUnit? a b c d).isSome && escapesValid rest
  | 0x5C :: b :: rest => (shortEscape? b).isSome && escapesValid rest
  | 0x5C :: [] => false
  | _ :: rest => escapesValid rest

/-- The UTF-8 form of a code point that is no surrogate. -/
def codePoint (n : Nat) : Bytes := String.utf8EncodeChar (Char.ofNat n)

/-- Resolves the escapes of a string.  Code points above U+FFFF are written as
two surrogates; a surrogate on its own is refused.  `acc` holds the bytes so
far, last first. -/
def unescape (acc : Bytes) : Bytes → Option Bytes
  | [] => some acc.reverse
  | 0x5C :: 0x75 :: a :: b :: c :: d :: rest =>
    match hexUnit? a b c d with
    | none => none
    | some n =>
      if 0xDC00 ≤ n ∧ n ≤ 0xDFFF then none
      else if 0xD800 ≤ n ∧ n ≤ 0xDBFF then
        match rest with
        | 0x5C :: 0x75 :: e :: f :: g :: h :: rest =>
          match hexUnit? e f g h with
          | none => none
          | some m =>
            if 0xDC00 ≤ m ∧ m ≤ 0xDFFF then
              let n := 0x10000 + (n - 0xD800) * 0x400 + (m - 0xDC00)
              unescape ((codePoint n).reverse ++ acc) rest
            else none
        | _ => none
      else unescape ((codePoint n).reverse ++ acc) rest
  | 0x5C :: b :: rest =>
    match shortEscape? b with
    | some c => unescape (c :: acc) rest
    | none => none
  | 0x5C :: [] => none
  | b :: rest => unescape (b :: acc) rest

/-- The rest of a string that is kept, after its opening quotation mark. -/
def stringRest : Reader String := fun bs =>
  match rawString [] bs with
  | .error e => .error e
  | .ok (raw, rest) =>
    match (unescape [] raw).bind Bytes.toText? with
    | some s => .ok (s, rest)
    | none => .error .malformed

/-- The rest of a string that is skipped, after its opening quotation mark. -/
def skipStringRest (bs : Bytes) : Except Fault Bytes :=
  match rawString [] bs with
  | .error e => .error e
  | .ok (raw, rest) => if escapesValid raw then .ok rest else .error .malformed

/-! ### Numbers -/

/-- A number as it is written. -/
structure Numeral where
  negative : Bool
  whole : Bytes
  fraction : Option Bytes
  /-- The sign (true for minus) and digits of the exponent. -/
  exponent : Option (Bool × Bytes)

/-- The value of a row of digits. -/
def digitsValue (ds : Bytes) : Nat := ds.foldl (fun n d => 10 * n + (d.toNat - 48)) 0

/-- One digit or more. -/
def digitRow? (bs : Bytes) : Option (Bytes × Bytes) :=
  match bs.takeWhile isDigit with
  | [] => none
  | ds => some (ds, bs.dropWhile isDigit)

/-- The whole part of a number: no zero in front of another digit. -/
def wholePart? (bs : Bytes) : Option (Bytes × Bytes) :=
  match digitRow? bs with
  | some (0x30 :: _ :: _, _) => none
  | other => other

/-- The fraction of a number, if a point follows. -/
def fractionPart? : Bytes → Option (Option Bytes × Bytes)
  | 0x2E :: rest => (digitRow? rest).map fun (ds, rest) => (some ds, rest)
  | bs => some (none, bs)

/-- The exponent of a number, if the letter follows. -/
def exponentPart? : Bytes → Option (Option (Bool × Bytes) × Bytes)
  | b :: rest =>
    if b = 0x65 ∨ b = 0x45 then
      let (minus, rest) := match rest with
        | 0x2D :: rest => (true, rest)
        | 0x2B :: rest => (false, rest)
        | rest => (false, rest)
      (digitRow? rest).map fun (ds, rest) => (some (minus, ds), rest)
    else some (none, b :: rest)
  | [] => some (none, [])

/-- A number, at its sign or first digit. -/
def numeral? (bs : Bytes) : Option (Numeral × Bytes) := do
  let (negative, bs) := match bs with
    | 0x2D :: rest => (true, rest)
    | bs => (false, bs)
  let (whole, bs) ← wholePart? bs
  let (fraction, bs) ← fractionPart? bs
  let (exponent, bs) ← exponentPart? bs
  some (⟨negative, whole, fraction, exponent⟩, bs)

/-- The least number that is too large for a double, once rounded. -/
def doubleBound : Nat := Nat.pow 2 1024 - Nat.pow 2 970

/-- Whether a number is too large for a double.  A number that is looked at must
not be; one that is skipped may. -/
def Numeral.exceedsDouble (n : Numeral) : Bool :=
  let fraction := n.fraction.getD []
  let digits := digitsValue (n.whole ++ fraction)
  let exponent : Int := match n.exponent with
    | some (true, ds) => -(digitsValue ds : Int)
    | some (false, ds) => digitsValue ds
    | none => 0
  let scale := exponent - fraction.length
  let magnitude := scale + (Nat.toDigits 10 digits).length
  digits != 0 && (310 < magnitude ||
    (300 < magnitude &&
      doubleBound * Nat.pow 10 (-scale).toNat ≤ digits * Nat.pow 10 scale.toNat))

/-- The integer that a number is written as: no fraction, no exponent, no minus
in front of zero, and no more than 64 bits with its sign. -/
def Numeral.int64? (n : Numeral) : Option Int64 :=
  if n.fraction.isSome || n.exponent.isSome then none
  else
    let v := digitsValue n.whole
    if n.negative then
      if 0 < v ∧ v ≤ Nat.pow 2 63 then some (Int64.ofInt (-(v : Int))) else none
    else if v < Nat.pow 2 63 then some (Int64.ofInt v) else none

/-! ## Values -/

/-- Fails at a value of another shape than wanted: as `malformed` if it cannot
even be read as far as it has to be looked at. -/
def unwanted : Reader α := fun bs =>
  let judge (readable : Bool) : Except Fault (α × Bytes) :=
    .error (if readable then .mismatched else .malformed)
  match skipSpace bs with
  | [] => judge false
  | b :: rest =>
    if b = 0x6E then judge (rest.take 3 = [0x75, 0x6C, 0x6C])
    else if b = 0x74 then judge (rest.take 3 = [0x72, 0x75, 0x65])
    else if b = 0x66 then judge (rest.take 4 = [0x61, 0x6C, 0x73, 0x65])
    else if b = 0x2D ∨ isDigit b then
      judge <| match numeral? (b :: rest) with
        | some (n, _) => !n.exceedsDouble
        | none => false
    else if b = 0x22 then judge (stringRest rest).isOk
    else judge (b = 0x5B ∨ b = 0x7B)

/-- A text. -/
def string : Reader String := fun bs =>
  match skipSpace bs with
  | 0x22 :: rest => stringRest rest
  | bs => unwanted bs

/-- A signed 64-bit integer. -/
def int64 : Reader Int64 := fun bs =>
  match skipSpace bs with
  | b :: rest =>
    if b = 0x2D ∨ isDigit b then
      match numeral? (b :: rest) with
      | none => .error .malformed
      | some (n, after) =>
        match n.int64? with
        | some i => .ok (i, after)
        | none => .error (if n.exceedsDouble then .malformed else .mismatched)
    else unwanted (b :: rest)
  | [] => unwanted []

/-- A truth value. -/
def bool : Reader Bool := fun bs =>
  match skipSpace bs with
  | 0x74 :: rest => (expect [0x72, 0x75, 0x65] rest).map fun (_, rest) => (true, rest)
  | 0x66 :: rest => (expect [0x61, 0x6C, 0x73, 0x65] rest).map fun (_, rest) => (false, rest)
  | bs => unwanted bs

/-- A value or null. -/
def nullable (r : Reader α) : Reader (Option α) := fun bs =>
  match skipSpace bs with
  | 0x6E :: rest => (expect [0x75, 0x6C, 0x6C] rest).map fun (_, rest) => (none, rest)
  | bs => (r bs).map fun (a, rest) => (some a, rest)

/-! ## Values that are skipped -/

/-- The brackets that are open around a value that is being skipped. -/
inductive Bracket where
  | array
  | object

/-- The name of a member and the colon after it, in front of its value. -/
def skipName (bs : Bytes) : Except Fault Bytes :=
  match skipSpace bs with
  | 0x22 :: rest =>
    match skipStringRest rest with
    | .error e => .error e
    | .ok rest =>
      match skipSpace rest with
      | 0x3A :: rest => .ok rest
      | _ => .error .malformed
  | _ => .error .malformed

/-- Passes over a value within the open brackets, and over everything up to the
end of the outermost of them.  With `complete` the value itself is already
behind, and what follows it is looked at.  Every step takes a byte, so the
length of the text is fuel enough. -/
def skipLoop : Nat → Bool → List Bracket → Bytes → Except Fault Bytes
  | 0, _, _, _ => .error .malformed
  | _ + 1, true, [], bs => .ok bs
  | fuel + 1, true, .array :: outer, bs =>
    match skipSpace bs with
    | 0x2C :: rest => skipLoop fuel false (.array :: outer) rest
    | 0x5D :: rest => skipLoop fuel true outer rest
    | _ => .error .malformed
  | fuel + 1, true, .object :: outer, bs =>
    match skipSpace bs with
    | 0x2C :: rest =>
      match skipName rest with
      | .ok rest => skipLoop fuel false (.object :: outer) rest
      | .error e => .error e
    | 0x7D :: rest => skipLoop fuel true outer rest
    | _ => .error .malformed
  | fuel + 1, false, stack, bs =>
    match skipSpace bs with
    | [] => .error .malformed
    | b :: rest =>
      if b = 0x5B then
        match skipSpace rest with
        | 0x5D :: rest => skipLoop fuel true stack rest
        | rest => skipLoop fuel false (.array :: stack) rest
      else if b = 0x7B then
        match skipSpace rest with
        | 0x7D :: rest => skipLoop fuel true stack rest
        | rest =>
          match skipName rest with
          | .ok rest => skipLoop fuel false (.object :: stack) rest
          | .error e => .error e
      else
        let after : Except Fault Bytes :=
          if b = 0x22 then skipStringRest rest
          else if b = 0x6E then (expect [0x75, 0x6C, 0x6C] rest).map (·.2)
          else if b = 0x74 then (expect [0x72, 0x75, 0x65] rest).map (·.2)
          else if b = 0x66 then (expect [0x61, 0x6C, 0x73, 0x65] rest).map (·.2)
          else match numeral? (b :: rest) with
            | some (_, rest) => .ok rest
            | none => .error .malformed
        match after with
        | .ok rest => skipLoop fuel true stack rest
        | .error e => .error e

/-- Passes over one value of any shape. -/
def skipValue : Reader Unit := fun bs =>
  (skipLoop (2 * bs.length + 2) false [] bs).map fun rest => ((), rest)

/-! ## Lists and records -/

/-- Moves to the next element of an array, `first` or later; none at its end,
which is not passed over. -/
def nextElement (first : Bool) (bs : Bytes) : Except Fault (Option Bytes) :=
  match skipSpace bs with
  | 0x5D :: _ => .ok none
  | [] => .error .malformed
  | b :: rest =>
    if first then .ok (some (b :: rest))
    else if b = 0x2C then
      match skipSpace rest with
      | 0x5D :: _ | [] => .error .malformed
      | rest => .ok (some rest)
    else .error .malformed

/-- The end of an array. -/
def endArray : Reader Unit := fun bs =>
  match skipSpace bs with
  | 0x5D :: rest => .ok ((), rest)
  | _ => .error .malformed

/-- The elements of an array up to its end, last first; every element takes a
byte, so the length of the text is fuel enough. -/
def elements (r : Reader α) : Nat → List α → Reader (List α)
  | 0, _, _ => .error .malformed
  | fuel + 1, acc, bs =>
    match nextElement acc.isEmpty bs with
    | .error e => .error e
    | .ok none => (endArray bs).map fun (_, rest) => (acc.reverse, rest)
    | .ok (some bs) =>
      match r bs with
      | .error e => .error e
      | .ok (a, rest) => elements r fuel (a :: acc) rest

/-- A list, written as an array. -/
def list (r : Reader α) : Reader (List α) := fun bs =>
  match skipSpace bs with
  | 0x5B :: rest => elements r (rest.length + 1) [] rest
  | bs => unwanted bs

/-- A member of a record under construction: its name, whether it was read
already, and how it is read. -/
structure Member (σ : Type) where
  name : String
  isRead : σ → Bool
  read : σ → Reader σ

/-- The member of a record whose value `r` reads, given where it is kept. -/
def Member.named {σ : Type} (name : String) (get : σ → Option α) (set : σ → α → σ)
    (r : Reader α) : Member σ where
  name
  isRead s := (get s).isSome
  read s bs := (r bs).map fun (a, rest) => (set s a, rest)

/-- Moves to the name of the next member of an object; none at its end, which is
not passed over. -/
def nextMember (first : Bool) (bs : Bytes) : Except Fault (Option Bytes) :=
  let atName (bs : Bytes) : Except Fault (Option Bytes) :=
    match bs with
    | 0x22 :: rest => .ok (some rest)
    | _ => .error .malformed
  match skipSpace bs with
  | 0x7D :: _ => .ok none
  | 0x2C :: rest => if first then .error .malformed else atName (skipSpace rest)
  | bs => if first then atName bs else .error .malformed

/-- Reads the value of the member `name`, behind the name. -/
def memberValue {σ : Type} (members : List (Member σ)) (name : String) (s : σ) : Reader σ :=
  fun bs =>
    let value (r : Reader σ) : Except Fault (σ × Bytes) :=
      match skipSpace bs with
      | 0x3A :: rest => r rest
      | _ => .error .malformed
    match members.find? (·.name == name) with
    | none => value fun bs => (skipValue bs).map fun (_, rest) => (s, rest)
    | some m => if m.isRead s then .error .mismatched else value (m.read s)

/-- The members of an object up to its end. -/
def objectMembers {σ : Type} (members : List (Member σ)) : Nat → Bool → σ → Reader σ
  | 0, _, _, _ => .error .malformed
  | fuel + 1, first, s, bs =>
    match nextMember first bs with
    | .error e => .error e
    | .ok none => .ok (s, bs)
    | .ok (some bs) =>
      match stringRest bs with
      | .error e => .error e
      | .ok (name, rest) =>
        match memberValue members name s rest with
        | .error e => .error e
        | .ok (s, rest) => objectMembers members fuel false s rest

/-- The members of a record in order, as the elements of an array; fewer may be
there. -/
def arrayMembers {σ : Type} : List (Member σ) → Bool → σ → Reader σ
  | [], _, s, bs => .ok (s, bs)
  | m :: ms, first, s, bs =>
    match nextElement first bs with
    | .error e => .error e
    | .ok none => .ok (s, bs)
    | .ok (some bs) =>
      match m.read s bs with
      | .error e => .error e
      | .ok (s, rest) => arrayMembers ms false s rest

/-- Completes a record; one that lacks a member is of the wrong shape. -/
def complete {σ : Type} (finish : σ → Option α) (close : UInt8) (s : σ) : Reader α := fun bs =>
  match finish s with
  | none => .error .mismatched
  | some a =>
    match skipSpace bs with
    | [] => .error .malformed
    | b :: rest => if b = close then .ok (a, rest) else .error .malformed

/-- A record: an object with these members, in any order, or an array of them. -/
def record {σ : Type} (members : List (Member σ)) (start : σ) (finish : σ → Option α) :
    Reader α := fun bs =>
  match skipSpace bs with
  | 0x7B :: rest =>
    match objectMembers members (rest.length + 1) true start rest with
    | .error e => .error e
    | .ok (s, rest) => complete finish 0x7D s rest
  | 0x5B :: rest =>
    match arrayMembers members true start rest with
    | .error e => .error e
    | .ok (s, rest) => complete finish 0x5D s rest
  | bs => unwanted bs

/-- One of a few names: the name as a text, or as the only member of an object,
whose value is null. -/
def choice (alternatives : List (String × α)) : Reader α := fun bs =>
  match skipSpace bs with
  | 0x22 :: rest =>
    match stringRest rest with
    | .error e => .error e
    | .ok (name, rest) =>
      match alternatives.lookup name with
      | some a => .ok (a, rest)
      | none => .error .mismatched
  | 0x7B :: rest =>
    match string rest with
    | .error e => .error e
    | .ok (name, rest) =>
      match alternatives.lookup name with
      | none => .error .mismatched
      | some a =>
        match skipSpace rest with
        | 0x3A :: rest =>
          match skipSpace rest with
          | 0x6E :: 0x75 :: 0x6C :: 0x6C :: rest =>
            match skipSpace rest with
            | 0x7D :: rest => .ok (a, rest)
            | _ => .error .malformed
          | bs => unwanted bs
        | _ => .error .malformed
  | _ => .error .malformed

/-! ## Whole texts -/

/-- Reads the value at the front of a text; what follows it is not looked at. -/
def front (r : Reader α) (bs : Bytes) : Except Fault α := (r bs).map (·.1)

/-- Reads a text that holds one value and nothing else but white space. -/
def whole (r : Reader α) (bs : Bytes) : Except Fault α :=
  match r bs with
  | .error e => .error e
  | .ok (a, rest) => if skipSpace rest = [] then .ok a else .error .malformed

end Reader

end ClipRelay.Json
