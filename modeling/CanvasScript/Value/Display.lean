import CanvasScript.Decimal.Numeral
import CanvasScript.Text.Quoted
import CanvasScript.Value

/-!
# Showing and reading values

`shown` is what `{value!r}` writes into a message, and `plain` what `{value}` does. `toScalar?` is
the conversion with which `clamp_param` and the operations of a scheduler begin.

* `shown` writes a value as messages show it: texts in quotes, arrays in brackets, objects in
  braces.
* `plain` is the same except for a text, which stands for itself.
* `toScalar?` is the scalar that a value denotes: a number, a flag, or a text that holds a numeral.

Out of scope: the limit on the digits of an integer that is written. An integer of more than
`Decimal.digitLimit` digits is shown in full here, where writing it raises an error. No document
holds such an integer, since reading one fails, and no line does, since its integers come from
scalars; so it takes instructions that were never written down. For the statements of a trace
`Proofs/Timeline/Checked` keeps account of the limit. How deep values are nested is not bounded
either.
-/

namespace CanvasScript

/-- Why a value denotes no scalar. -/
inductive ReadFault where
  /-- The text holds no numeral. -/
  | unreadable (text : String)
  /-- The integer lies beyond the finite scalars. -/
  | tooLarge
  /-- A value of this kind denotes no scalar. -/
  | notNumeric (typeName : String)
  deriving DecidableEq, Repr

/-- The text that reports the fault. -/
def ReadFault.message : ReadFault → String
  | .unreadable text => "could not convert string to float: " ++ Text.quoted text
  | .tooLarge => ArithmeticFault.tooLarge.message
  | .notNumeric typeName =>
    "float() argument must be a string or a real number, not '" ++ typeName ++ "'"

/-- A scalar as it was asked for: what was asked may denote none, which is reported when it is used.
-/
abbrev Reading (α : Type) := Except ReadFault α

namespace Value

variable {α : Type} [Written α]

mutual

/-- The value as messages show it. -/
def shown : Value α → String
  | .null => "None"
  | .flag b => if b then "True" else "False"
  | .number n => n.text
  | .text s => Text.quoted s
  | .array items => "[" ++ shownItems items ++ "]"
  | .object fields => "\x7b" ++ shownFields fields ++ "\x7d"

/-- Values in a row, with commas between them. -/
def shownItems : List (Value α) → String
  | [] => ""
  | [v] => shown v
  | v :: rest => shown v ++ ", " ++ shownItems rest

/-- Fields in a row, with commas between them. -/
def shownFields : List (String × Value α) → String
  | [] => ""
  | [(name, v)] => Text.quoted name ++ ": " ++ shown v
  | (name, v) :: rest => Text.quoted name ++ ": " ++ shown v ++ ", " ++ shownFields rest

end

/-- The value as a text of its own: a text stands for itself. -/
def plain : Value α → String
  | .text s => s
  | v => v.shown

/-- The scalar that the value denotes. -/
def toScalar? : Value α → Reading α
  | .number (.int n) => if Scalar.holds (α := α) n then .ok (Scalar.ofInt n) else .error .tooLarge
  | .number (.real x) => .ok x
  | .flag b => .ok (if b then Scalar.one else Scalar.zero)
  | .text s =>
    match Decimal.Numeral.read? s.toList with
    | some numeral => .ok numeral.toScalar
    | none => .error (.unreadable s)
  | v => .error (.notNumeric v.typeName)

end Value

end CanvasScript
