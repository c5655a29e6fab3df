import CanvasScript.Decimal.Digits
import CanvasScript.Text.Hex
import CanvasScript.Value

/-!
# Writing JSON

A value is written in ASCII: other characters by their sixteen-bit units. `compact` keeps it on one
line, and `indented` puts every item and field on a line of its own, two blanks deeper than what
holds it.

Model of the writer of program files, which writes them `indented`.

Out of scope: a bound on the depth of values, and the limit on the digits of an integer that is
written (`Value/Display`).
-/

namespace CanvasScript.Json

open Text

/-- A sixteen-bit unit behind a backslash. -/
def unitText (unit : Nat) : List Char := '\\' :: 'u' :: hexDigits 4 unit []

/-- One character of a text. -/
def writtenChar (c : Char) : List Char :=
  if c == '"' then ['\\', '"']
  else if c == '\\' then ['\\', '\\']
  else if c == '\n' then ['\\', 'n']
  else if c == '\r' then ['\\', 'r']
  else if c == '\t' then ['\\', 't']
  else if c == '\x0c' then ['\\', 'f']
  else if c == '\x08' then ['\\', 'b']
  else
    let n := c.toNat
    if 0x20 ≤ n ∧ n < 0x7f then [c]
    else if n < 0x10000 then unitText n
    else unitText (0xd800 + (n - 0x10000) / 1024) ++ unitText (0xdc00 + (n - 0x10000) % 1024)

/-- A text between quotes. -/
def writtenText (s : String) : String :=
  String.ofList ('"' :: s.toList.flatMap writtenChar ++ ['"'])

section

variable {α : Type} [Written α]

/-- A number: a scalar that is not finite by its word. -/
def writtenNumber : Number α → String
  | .int n => Decimal.integerText n
  | .real x =>
    if Scalar.isFinite x then Written.shortest x
    else if x < Scalar.zero then "-Infinity"
    else if Scalar.zero < x then "Infinity"
    else "NaN"

mutual

/-- The value on one line. -/
def compact : Value α → String
  | .null => "null"
  | .flag b => if b then "true" else "false"
  | .number n => writtenNumber n
  | .text s => writtenText s
  | .array items => "[" ++ compactItems items ++ "]"
  | .object fields => "\x7b" ++ compactFields fields ++ "\x7d"

/-- The items of an array on one line. -/
def compactItems : List (Value α) → String
  | [] => ""
  | [v] => compact v
  | v :: rest => compact v ++ ", " ++ compactItems rest

/-- The fields of an object on one line. -/
def compactFields : List (String × Value α) → String
  | [] => ""
  | [(name, v)] => writtenText name ++ ": " ++ compact v
  | (name, v) :: rest => writtenText name ++ ": " ++ compact v ++ ", " ++ compactFields rest

end

/-- A line break and the blanks of a depth. -/
def newLine (depth : Nat) : String :=
  String.ofList ('\n' :: List.replicate (2 * depth) ' ')

mutual

/-- The value over several lines, inside others of a depth. -/
def indentedAt (depth : Nat) : Value α → String
  | .array [] => "[]"
  | .array (v :: rest) =>
    "[" ++ newLine (depth + 1) ++ indentedItems (depth + 1) (v :: rest) ++ newLine depth ++ "]"
  | .object [] => "\x7b\x7d"
  | .object (field :: rest) =>
    "\x7b" ++ newLine (depth + 1) ++ indentedFields (depth + 1) (field :: rest) ++
      newLine depth ++ "\x7d"
  | .null => "null"
  | .flag b => if b then "true" else "false"
  | .number n => writtenNumber n
  | .text s => writtenText s

/-- The items of an array, each on a line of its own. -/
def indentedItems (depth : Nat) : List (Value α) → String
  | [] => ""
  | [v] => indentedAt depth v
  | v :: rest => indentedAt depth v ++ "," ++ newLine depth ++ indentedItems depth rest

/-- The fields of an object, each on a line of its own. -/
def indentedFields (depth : Nat) : List (String × Value α) → String
  | [] => ""
  | [(name, v)] => writtenText name ++ ": " ++ indentedAt depth v
  | (name, v) :: rest =>
    writtenText name ++ ": " ++ indentedAt depth v ++ "," ++ newLine depth ++
      indentedFields depth rest

end

/-- The value over several lines. -/
def indented (v : Value α) : String := indentedAt 0 v

end

end CanvasScript.Json
