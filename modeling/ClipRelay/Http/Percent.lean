import ClipRelay.Hex

/-!
# ClipRelay.Http.Percent

Percent-encoding in the targets of requests.

A percent sign and two hexadecimal digits stand for a byte; a percent sign
without them stands for itself.  A query is a row of `name=value` pairs, in
which a plus sign stands for a blank.
-/

namespace ClipRelay.Http

/-- The value of a hexadecimal digit. -/
def hexByte? (b : UInt8) : Option UInt8 := Hex.value? (Char.ofNat b.toNat)

/-- Resolves the percent-encoded bytes. -/
def percentDecode : Bytes → Bytes
  | 0x25 :: h :: l :: rest =>
    match hexByte? h, hexByte? l with
    | some a, some b => (16 * a + b) :: percentDecode rest
    | _, _ => 0x25 :: percentDecode (h :: l :: rest)
  | b :: rest => b :: percentDecode rest
  | [] => []

/-- The text that a path segment stands for, if it is a text. -/
def segment? (s : String) : Option String := Bytes.toText? (percentDecode (Bytes.ofText s))

/-- Reads bytes as UTF-8, with a replacement character for every byte that
belongs to no character. -/
def lossyText : Nat → Bytes → List Char
  | 0, _ => []
  | _, [] => []
  | fuel + 1, b :: rest =>
    let readings := [1, 2, 3, 4].filterMap fun n =>
      (Bytes.toText? ((b :: rest).take n)).map fun s => (s.toList, (b :: rest).drop n)
    match readings with
    | (cs, after) :: _ => cs ++ lossyText fuel after
    | [] => '\ufffd' :: lossyText fuel rest

/-- The text of a name or value in a query. -/
def queryText (bs : Bytes) : String :=
  let bytes := percentDecode (bs.map fun b => if b = 0x2B then 0x20 else b)
  String.ofList (lossyText bytes.length bytes)

/-- The pairs of a query, in order; empty ones are left out. -/
def queryPairs (query : String) : List (String × String) :=
  let parts := ((Bytes.ofText query).splitOnP (· == 0x26)).filter (· ≠ [])
  parts.map fun part =>
    (queryText (part.takeWhile (· != 0x3D)), queryText ((part.dropWhile (· != 0x3D)).drop 1))

end ClipRelay.Http
