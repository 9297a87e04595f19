import ClipRelay.Uuid

/-!
# ClipRelay.Binary.Format

Binary formats and how they are put together.

A `Format α` writes a value as bytes and reads one off the front of a byte
string, returning what follows it.  The formats of the protocol are built from
a handful of atoms (fixed-width little-endian numbers, length-prefixed byte
strings, texts and identifiers) and four ways to combine them: one after the
other (`seq`), optional (`option`), repeated (`list`), and chosen by a number
in front (`choice`).

A reader looks at the bytes from left to right and reports the first thing that
is wrong.  A length is believed before anything else: as long as fewer bytes
follow than it announces, the input ends too early.
-/

namespace ClipRelay.Binary

/-- Why a byte string is not the binary form of a value. -/
inductive DecodeError where
  /-- The bytes end inside the value. -/
  | endOfInput
  /-- The bytes of a text are not UTF-8. -/
  | invalidUtf8
  /-- The byte in front of an optional value is neither 0 nor 1. -/
  | invalidOptionTag
  /-- A choice has no such alternative, or an identifier is not sixteen bytes long. -/
  | invalidValue
deriving DecidableEq, Repr

/-- A way to write values of `α` as bytes and to read them back. -/
structure Format (α : Type) where
  encode : α → Bytes
  decode : Bytes → Except DecodeError (α × Bytes)

namespace Format

variable {α β : Type}

/-! ## Numbers -/

/-- The low `width` bytes of a number, lowest first. -/
def littleEndian : Nat → Nat → Bytes
  | 0, _ => []
  | width + 1, n => UInt8.ofNat n :: littleEndian width (n / 256)

/-- The number whose bytes these are, lowest first. -/
def ofLittleEndian : Bytes → Nat
  | [] => 0
  | b :: bs => b.toNat + 256 * ofLittleEndian bs

/-- Exactly `n` bytes. -/
def take (n : Nat) (bs : Bytes) : Except DecodeError (Bytes × Bytes) :=
  match bs.splitFront? n with
  | some split => .ok split
  | none => .error .endOfInput

/-- A natural number in `width` bytes. -/
def nat (width : Nat) : Format Nat where
  encode := littleEndian width
  decode bs := (take width bs).map fun (front, rest) => (ofLittleEndian front, rest)

/-! ## Combination -/

/-- The same bytes read as another type. -/
def iso (f : Format α) (make : α → β) (parts : β → α) : Format β where
  encode b := f.encode (parts b)
  decode bs := (f.decode bs).map fun (a, rest) => (make a, rest)

/-- One value after another. -/
def seq (f : Format α) (g : Format β) : Format (α × β) where
  encode p := f.encode p.1 ++ g.encode p.2
  decode bs :=
    match f.decode bs with
    | .error e => .error e
    | .ok (a, rest) => (g.decode rest).map fun (b, rest) => ((a, b), rest)

/-- A value read from another that may be refused; a refused one is reported as `e`. -/
def refine (f : Format α) (e : DecodeError) (make? : α → Option β) (parts : β → α) : Format β where
  encode b := f.encode (parts b)
  decode bs :=
    match f.decode bs with
    | .error e => .error e
    | .ok (a, rest) =>
      match make? a with
      | some b => .ok (b, rest)
      | none => .error e

/-- An optional value: the byte 0, or the byte 1 and the value. -/
def option (f : Format α) : Format (Option α) where
  encode
    | none => [0]
    | some a => 1 :: f.encode a
  decode
    | [] => .error .endOfInput
    | tag :: rest =>
      if tag = 0 then .ok (none, rest)
      else if tag = 1 then (f.decode rest).map fun (a, rest) => (some a, rest)
      else .error .invalidOptionTag

/-- Reads `n` values one after the other. -/
def decodeMany (f : Format α) : Nat → Bytes → Except DecodeError (List α × Bytes)
  | 0, bs => .ok ([], bs)
  | n + 1, bs =>
    match f.decode bs with
    | .error e => .error e
    | .ok (a, rest) => (decodeMany f n rest).map fun (as, rest) => (a :: as, rest)

/-- A number in eight bytes, taken as the length of what follows. -/
def length : Format Nat := nat 8

/-- A list: its length and its members. -/
def list (f : Format α) : Format (List α) where
  encode as := length.encode as.length ++ as.flatMap f.encode
  decode bs :=
    match length.decode bs with
    | .error e => .error e
    | .ok (n, rest) => decodeMany f n rest

/-- A choice between alternatives: the number of the one chosen in four bytes,
and then its own form.  `body n` reads alternative `n`. -/
def choice (number : α → Nat) (encodeBody : α → Bytes)
    (body : Nat → Bytes → Except DecodeError (α × Bytes)) : Format α where
  encode a := (nat 4).encode (number a) ++ encodeBody a
  decode bs :=
    match (nat 4).decode bs with
    | .error e => .error e
    | .ok (n, rest) => body n rest

/-- Reads an alternative of a choice that holds a value of format `f`. -/
def alternative (f : Format α) (make : α → β) (bs : Bytes) : Except DecodeError (β × Bytes) :=
  (f.decode bs).map fun (a, rest) => (make a, rest)

/-- Reads an alternative that holds nothing. -/
def constant (b : β) (bs : Bytes) : Except DecodeError (β × Bytes) := .ok (b, bs)

/-- A number that no alternative has. -/
def unknown (_ : Bytes) : Except DecodeError (α × Bytes) := .error .invalidValue

/-! ## Atoms -/

/-- A signed 32-bit number. -/
def int32 : Format Int32 :=
  (nat 4).iso (fun n => (UInt32.ofNat n).toInt32) (·.toUInt32.toNat)

/-- A signed 64-bit number. -/
def int64 : Format Int64 :=
  (nat 8).iso (fun n => (UInt64.ofNat n).toInt64) (·.toUInt64.toNat)

/-- An unsigned 64-bit number. -/
def uint64 : Format UInt64 :=
  (nat 8).iso UInt64.ofNat (·.toNat)

/-- A byte string: its length and its bytes. -/
def bytes : Format Bytes where
  encode bs := length.encode bs.length ++ bs
  decode bs :=
    match length.decode bs with
    | .error e => .error e
    | .ok (n, rest) => take n rest

/-- A text: the byte string of its UTF-8 form. -/
def text : Format String := bytes.refine .invalidUtf8 Bytes.toText? Bytes.ofText

/-- An identifier: the byte string of its sixteen bytes. -/
def uuid : Format Uuid := bytes.refine .invalidValue Uuid.ofBytes? Uuid.octets

end Format

end ClipRelay.Binary
