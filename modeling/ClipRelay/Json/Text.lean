import ClipRelay.Hex

/-!
# ClipRelay.Json.Text

JSON values and their text.

The relay writes tokens, answers and manifests as JSON.  A value is a tree, an
object keeps its members in the order in which they are given, and numbers are
integers.  There are two layouts: `compact`, without any white space, and
`pretty`, with one member or element a line, indented by two blanks a level.

Text is bytes here, since that is what is signed, sent and stored.
-/

namespace ClipRelay

/-- A JSON value whose numbers are integers. -/
inductive Json where
  | null
  | bool (b : Bool)
  | int (n : Int)
  | string (s : String)
  | array (elements : List Json)
  | object (members : List (String × Json))

namespace Json

/-- A text, or null where there is none. -/
def ofOption : Option String → Json
  | some s => .string s
  | none => .null

/-! ## Strings -/

/-- How one byte of a string is written: the quotation mark, the reverse solidus
and the control characters are escaped, all else stands for itself. -/
def escapeByte (b : UInt8) : Bytes :=
  if b = 0x22 then [0x5C, 0x22]
  else if b = 0x5C then [0x5C, 0x5C]
  else if b = 0x08 then [0x5C, 0x62]
  else if b = 0x09 then [0x5C, 0x74]
  else if b = 0x0A then [0x5C, 0x6E]
  else if b = 0x0C then [0x5C, 0x66]
  else if b = 0x0D then [0x5C, 0x72]
  else if b < 0x20 then
    [0x5C, 0x75, 0x30, 0x30] ++ (Hex.digits .lower b).map fun c => c.toNat.toUInt8
  else [b]

/-- A text between quotation marks. -/
def quote (s : String) : Bytes := 0x22 :: ((Bytes.ofText s).flatMap escapeByte ++ [0x22])

/-- A number in decimal. -/
def number (n : Int) : Bytes := Bytes.ofText (toString n)

/-- The text of a value that has no parts. -/
def scalar : Json → Bytes
  | .bool true => Bytes.ofText "true"
  | .bool false => Bytes.ofText "false"
  | .int n => number n
  | .string s => quote s
  | _ => Bytes.ofText "null"

/-! ## Layouts -/

/-- The bytes in front of a part, between two parts and after the last, and the
bytes after a member's name, at a depth of nesting. -/
structure Layout where
  lineBreak : Nat → Bytes
  colon : Bytes

/-- No white space at all. -/
def Layout.compact : Layout := ⟨fun _ => [], [0x3A]⟩

/-- A line for every part, indented by two blanks a level. -/
def Layout.pretty : Layout := ⟨fun depth => 0x0A :: List.replicate (2 * depth) 0x20, [0x3A, 0x20]⟩

mutual

/-- The text of a value at a depth of nesting. -/
def write (l : Layout) (depth : Nat) : Json → Bytes
  | .array [] => [0x5B, 0x5D]
  | .array (e :: es) =>
    0x5B :: (l.lineBreak (depth + 1) ++ write l (depth + 1) e ++ writeElements l (depth + 1) es ++
      l.lineBreak depth ++ [0x5D])
  | .object [] => [0x7B, 0x7D]
  | .object ((name, v) :: ms) =>
    0x7B :: (l.lineBreak (depth + 1) ++ quote name ++ l.colon ++ write l (depth + 1) v ++
      writeMembers l (depth + 1) ms ++ l.lineBreak depth ++ [0x7D])
  | scalarValue => scalar scalarValue

/-- The elements of an array after the first. -/
def writeElements (l : Layout) (depth : Nat) : List Json → Bytes
  | [] => []
  | e :: es => 0x2C :: (l.lineBreak depth ++ write l depth e ++ writeElements l depth es)

/-- The members of an object after the first. -/
def writeMembers (l : Layout) (depth : Nat) : List (String × Json) → Bytes
  | [] => []
  | (name, v) :: ms =>
    0x2C :: (l.lineBreak depth ++ quote name ++ l.colon ++ write l depth v ++
      writeMembers l depth ms)

end

/-- A value without white space. -/
def compact (j : Json) : Bytes := write .compact 0 j

/-- A value with a line for every part. -/
def pretty (j : Json) : Bytes := write .pretty 0 j

end Json

end ClipRelay
