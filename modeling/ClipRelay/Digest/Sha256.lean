import ClipRelay.Bytes

/-!
# ClipRelay.Digest.Sha256

The SHA-256 hash of FIPS 180-4.

The message is padded to a multiple of 64 bytes and absorbed byte by byte:
`Absorber.push` collects a block and compresses it when it is full, so hashing
is one left fold over the padded message.  The digest is the eight registers in
order, which makes its width, `length_digest`, immediate.
-/

namespace ClipRelay.Sha256

/-! ## The compression function -/

/-- The eight working registers. -/
structure Registers where
  a : UInt32
  b : UInt32
  c : UInt32
  d : UInt32
  e : UInt32
  f : UInt32
  g : UInt32
  h : UInt32
deriving DecidableEq

/-- The first 32 bits of the fractional parts of the square roots of the first
eight primes. -/
def Registers.initial : Registers :=
  ⟨0x6a09e667, 0xbb67ae85, 0x3c6ef372, 0xa54ff53a, 0x510e527f, 0x9b05688c, 0x1f83d9ab, 0x5be0cd19⟩

/-- Registers added one by one, modulo 2³². -/
def Registers.add (x y : Registers) : Registers :=
  ⟨x.a + y.a, x.b + y.b, x.c + y.c, x.d + y.d, x.e + y.e, x.f + y.f, x.g + y.g, x.h + y.h⟩

/-- The first 32 bits of the fractional parts of the cube roots of the first
sixty-four primes. -/
def constants : Array UInt32 := #[
  0x428a2f98, 0x71374491, 0xb5c0fbcf, 0xe9b5dba5, 0x3956c25b, 0x59f111f1, 0x923f82a4, 0xab1c5ed5,
  0xd807aa98, 0x12835b01, 0x243185be, 0x550c7dc3, 0x72be5d74, 0x80deb1fe, 0x9bdc06a7, 0xc19bf174,
  0xe49b69c1, 0xefbe4786, 0x0fc19dc6, 0x240ca1cc, 0x2de92c6f, 0x4a7484aa, 0x5cb0a9dc, 0x76f988da,
  0x983e5152, 0xa831c66d, 0xb00327c8, 0xbf597fc7, 0xc6e00bf3, 0xd5a79147, 0x06ca6351, 0x14292967,
  0x27b70a85, 0x2e1b2138, 0x4d2c6dfc, 0x53380d13, 0x650a7354, 0x766a0abb, 0x81c2c92e, 0x92722c85,
  0xa2bfe8a1, 0xa81a664b, 0xc24b8b70, 0xc76c51a3, 0xd192e819, 0xd6990624, 0xf40e3585, 0x106aa070,
  0x19a4c116, 0x1e376c08, 0x2748774c, 0x34b0bcb5, 0x391c0cb3, 0x4ed8aa4a, 0x5b9cca4f, 0x682e6ff3,
  0x748f82ee, 0x78a5636f, 0x84c87814, 0x8cc70208, 0x90befffa, 0xa4506ceb, 0xbef9a3f7, 0xc67178f2]

/-- The word `x` turned right by `n` bits, for `n` from 1 to 31. -/
@[inline] def rotateRight (x n : UInt32) : UInt32 := (x >>> n) ||| (x <<< (32 - n))

/-- The sixteen words of a block, extended by the forty-eight that follow from
them: `steps` more are added to `words`. -/
def extend : Nat → Array UInt32 → Array UInt32
  | 0, words => words
  | steps + 1, words =>
    let t := words.size
    let w2 := words.getD (t - 2) 0
    let w15 := words.getD (t - 15) 0
    let s0 := rotateRight w15 7 ^^^ rotateRight w15 18 ^^^ (w15 >>> 3)
    let s1 := rotateRight w2 17 ^^^ rotateRight w2 19 ^^^ (w2 >>> 10)
    extend steps (words.push (words.getD (t - 16) 0 + s0 + words.getD (t - 7) 0 + s1))

/-- One round with the message word and constant `kw`. -/
@[inline] def round (r : Registers) (kw : UInt32) : Registers :=
  let s1 := rotateRight r.e 6 ^^^ rotateRight r.e 11 ^^^ rotateRight r.e 25
  let choice := (r.e &&& r.f) ^^^ (~~~r.e &&& r.g)
  let t1 := r.h + s1 + choice + kw
  let s0 := rotateRight r.a 2 ^^^ rotateRight r.a 13 ^^^ rotateRight r.a 22
  let majority := (r.a &&& r.b) ^^^ (r.a &&& r.c) ^^^ (r.b &&& r.c)
  ⟨t1 + s0 + majority, r.a, r.b, r.c, r.d + t1, r.e, r.f, r.g⟩

/-- The rounds from number `t` on, `steps` of them. -/
def rounds (words : Array UInt32) : Nat → Nat → Registers → Registers
  | 0, _, r => r
  | steps + 1, t, r => rounds words steps (t + 1) (round r (constants.getD t 0 + words.getD t 0))

/-- The registers after one block of sixteen words. -/
def compress (r : Registers) (block : Array UInt32) : Registers :=
  r.add (rounds (extend 48 block) 64 0 r)

/-! ## Absorbing the message -/

/-- The state between two bytes: the registers, the words of the block begun so
far, and the bits of the word begun so far. -/
structure Absorber where
  registers : Registers
  block : Array UInt32
  word : UInt32
  filled : Nat

/-- The state before the first byte. -/
def Absorber.initial : Absorber := ⟨.initial, #[], 0, 0⟩

/-- Takes one byte in; the sixteenth word completes a block. -/
def Absorber.push (s : Absorber) (byte : UInt8) : Absorber :=
  let word := (s.word <<< 8) ||| byte.toUInt32
  if s.filled < 3 then { s with word, filled := s.filled + 1 }
  else
    let block := s.block.push word
    if block.size < 16 then ⟨s.registers, block, 0, 0⟩
    else ⟨compress s.registers block, #[], 0, 0⟩

/-- The big-endian bytes of a word. -/
def wordBytes (w : UInt32) : Bytes :=
  [(w >>> 24).toUInt8, (w >>> 16).toUInt8, (w >>> 8).toUInt8, w.toUInt8]

/-- The bytes of the registers, in order. -/
def Registers.toBytes (r : Registers) : Bytes :=
  [r.a, r.b, r.c, r.d, r.e, r.f, r.g, r.h].flatMap wordBytes

/-- What is appended to a message of `n` bytes: a one bit, zeros up to the last
eight bytes of a block, and the length in bits. -/
def padding (n : Nat) : Bytes :=
  0x80 :: (List.replicate ((119 - n % 64) % 64) 0 ++
    (List.range 8).map fun i => UInt8.ofNat (n * 8 / Nat.pow 256 (7 - i)))

/-- The SHA-256 hash of a message. -/
def digest (message : Bytes) : Bytes :=
  let whole := message.foldl Absorber.push .initial
  ((padding message.length).foldl Absorber.push whole).registers.toBytes

/-- The number of bytes in a digest. -/
def size : Nat := 32

@[simp] theorem length_digest (message : Bytes) : (digest message).length = size := rfl

end ClipRelay.Sha256
