/-!
# ClipRelay.Text.Decimal

Decimal numbers in settings and in addresses.

A number is an optional sign and ASCII digits, with nothing before, between or
after them; leading zeros are allowed.  A number outside the range asked for is
no number.
-/

namespace ClipRelay.Text.Decimal

/-- The value of an ASCII decimal digit. -/
def digit? (c : Char) : Option Nat :=
  if '0' ≤ c ∧ c ≤ '9' then some (c.toNat - 48) else none

/-- The value of a row of digits, continuing the number `n`. -/
def digits? (n : Nat) : List Char → Option Nat
  | [] => some n
  | c :: rest =>
    match digit? c with
    | some d => digits? (10 * n + d) rest
    | none => none

/-- The value of a nonempty row of digits. -/
def natural? : List Char → Option Nat
  | [] => none
  | cs => digits? 0 cs

/-- A natural number below `bound`, with an optional plus sign. -/
def unsigned? (bound : Nat) (s : String) : Option Nat :=
  let body := match s.toList with
    | '+' :: rest => rest
    | cs => cs
  (natural? body).filter (· < bound)

/-- A signed 64-bit number, with an optional sign. -/
def int64? (s : String) : Option Int64 :=
  let number : Option Int := match s.toList with
    | '+' :: rest => (natural? rest).map Int.ofNat
    | '-' :: rest => (natural? rest).map fun n => -Int.ofNat n
    | cs => (natural? cs).map Int.ofNat
  (number.filter fun n => Int64.minValue.toInt ≤ n && n ≤ Int64.maxValue.toInt).map Int64.ofInt

end ClipRelay.Text.Decimal
