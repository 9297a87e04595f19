import ClipRelay.Text.Decimal

/-!
# ClipRelay.SocketAddress

Internet addresses with a port.

An IPv4 address is four decimal numbers without leading zeros; an IPv6 address
is eight groups of up to four hexadecimal digits, of which one run of zeros may
be left out and the last two may be written as an IPv4 address.  An address is
written in the canonical form of RFC 5952.
-/

namespace ClipRelay

/-- An address and a port. -/
inductive SocketAddress where
  /-- Four octets. -/
  | v4 (octets : List Nat) (port : Nat)
  /-- Eight groups, and the number of the interface the address belongs to. -/
  | v6 (groups : List Nat) (scope : Nat) (port : Nat)
deriving DecidableEq, Repr

namespace SocketAddress

/-! ## Reading -/

/-- Takes a value off the front of a text. -/
abbrev Reader (α : Type) := StateT (List Char) Option α

/-- Passes over a character. -/
def char (c : Char) : Reader Unit := fun
  | [] => none
  | d :: rest => if d = c then some ((), rest) else none

/-- The value of a digit in a base up to sixteen. -/
def digit? (base : Nat) (c : Char) : Option Nat :=
  let n :=
    if '0' ≤ c ∧ c ≤ '9' then c.toNat - 48
    else if 'a' ≤ c ∧ c ≤ 'f' then c.toNat - 87
    else if 'A' ≤ c ∧ c ≤ 'F' then c.toNat - 55
    else base
  if n < base then some n else none

/-- All the digits that follow, as a number below `bound`.  There may be a limit
to the number of digits, and zeros in front may be refused. -/
def number (base bound : Nat) (maxDigits : Option Nat) (leadingZeros : Bool) : Reader Nat :=
  fun cs =>
    let digits := (cs.takeWhile fun c => (digit? base c).isSome).filterMap (digit? base)
    let value := digits.foldl (fun n d => base * n + d) 0
    if digits.isEmpty then none
    else if maxDigits.any (· < digits.length) then none
    else if !leadingZeros && 1 < digits.length && digits.head? = some 0 then none
    else if bound ≤ value then none
    else some (value, cs.drop digits.length)

def octet : Reader Nat := number 10 256 (some 3) false

def ipv4 : Reader (List Nat) := do
  let a ← octet
  char '.'
  let b ← octet
  char '.'
  let c ← octet
  char '.'
  let d ← octet
  pure [a, b, c, d]

/-- A value with a colon in front, unless it is the first of its row. -/
def separated {α : Type} (first : Bool) (r : Reader α) : Reader α :=
  if first then r else do char ':'; r

/-- The groups that follow, `room` at most, and whether the last two were
written as an IPv4 address. -/
def groups : Nat → Bool → List Char → List Nat × Bool × List Char
  | 0, _, cs => ([], false, cs)
  | room + 1, first, cs =>
    let dotted := if room = 0 then none else separated first ipv4 cs
    match dotted with
    | some ([a, b, c, d], rest) => ([a * 256 + b, c * 256 + d], true, rest)
    | _ =>
      match separated first (number 16 65536 (some 4) true) cs with
      | none => ([], false, cs)
      | some (g, rest) =>
        let (gs, dotted, rest) := groups room false rest
        (g :: gs, dotted, rest)

def ipv6 : Reader (List Nat) := fun cs =>
  let (head, dotted, rest) := groups 8 true cs
  if head.length = 8 then some (head, rest)
  else if dotted then none
  else match rest with
    | ':' :: ':' :: rest =>
      let (tail, _, rest) := groups (7 - head.length) true rest
      some (head ++ List.replicate (8 - head.length - tail.length) 0 ++ tail, rest)
    | _ => none

def port : Reader Nat := do char ':'; number 10 65536 none true

def scope : Reader Nat := do char '%'; number 10 4294967296 none true

def socketV4 : Reader SocketAddress := do
  let octets ← ipv4
  pure (.v4 octets (← port))

def socketV6 : Reader SocketAddress := do
  char '['
  let groups ← ipv6
  let scope ← fun cs => some ((scope cs).getD (0, cs))
  char ']'
  pure (.v6 groups scope (← port))

/-- The address that a text is. -/
def parse? (s : String) : Option SocketAddress :=
  let whole (r : Reader SocketAddress) : Option SocketAddress :=
    match r s.toList with
    | some (a, []) => some a
    | _ => none
  (whole socketV4).or (whole socketV6)

/-! ## Writing -/

/-- Numbers with points between them. -/
def dotted (octets : List Nat) : String := ".".intercalate (octets.map toString)

def hexGroup (n : Nat) : String := String.ofList (Nat.toDigits 16 n)

/-- Membership with colons between them. -/
def colons (gs : List Nat) : String := ":".intercalate (gs.map hexGroup)

/-- The length of the run of zeros at the front. -/
def zeroRun (gs : List Nat) : Nat := (gs.takeWhile (· == 0)).length

/-- Start and length of the longest run of zeros, the first of equals. -/
def longestZeroRun : Nat → List Nat → Nat × Nat
  | _, [] => (0, 0)
  | at_, g :: gs =>
    let here := zeroRun (g :: gs)
    let later := longestZeroRun (at_ + 1) gs
    if later.2 ≤ here then (at_, here) else later

/-- An IPv6 address: the longest run of two zeros or more is left out, and an
IPv4 address inside is written as one. -/
def ipv6Text (gs : List Nat) : String :=
  match gs with
  | [0, 0, 0, 0, 0, 0xFFFF, a, b] =>
    "::ffff:" ++ dotted [a / 256, a % 256, b / 256, b % 256]
  | _ =>
    let (start, length) := longestZeroRun 0 gs
    if length < 2 then colons gs
    else colons (gs.take start) ++ "::" ++ colons (gs.drop (start + length))

/-- An address as text. -/
def toText : SocketAddress → String
  | .v4 octets port => dotted octets ++ ":" ++ toString port
  | .v6 gs scope port =>
    let zone := if scope = 0 then "" else "%" ++ toString scope
    "[" ++ ipv6Text gs ++ zone ++ "]:" ++ toString port

end SocketAddress

end ClipRelay
