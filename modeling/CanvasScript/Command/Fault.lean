import CanvasScript.Color.Style
import CanvasScript.Command.Schema
import CanvasScript.Value.Display

/-!
# Faults of instructions

An instruction is refused for the first rule that it breaks. A fault tells that rule; the message,
the command it names, the field it points at, what was expected there and what was found all follow
from it (`Fault.detail`, `command`, `field`, `expected` and `received`).

Model of `CommandValidationError` and `UnrecognizedCommandError` with all that they carry. A fault
is one of the errors that `decode_command`, `_check_arg`, `parse_command_line` and `_parse_param`
raise, and each constructor is the one place where it is raised.

* `CommandError` is a fault together with the place of its instruction in the program.

Out of scope: the limit on the digits of an integer in a message, as in `Value/Display`. `detail` is
total, and for an integer of more than `Decimal.digitLimit` digits it is a text where writing the
message raises an error. Such an integer is in no document and in no line.
-/

namespace CanvasScript

/-- An instruction as a program stores it: a free value, or what is known to be a row of items. -/
inductive Instruction (α : Type) where
  | value (v : Value α)
  | row (items : List (Value α))
  deriving Repr

namespace Instruction

variable {α : Type}

/-- The items of an instruction, if it has the form of a row. -/
def items? : Instruction α → Option (List (Value α))
  | .row items => some items
  | .value (.array items) => some items
  | .value _ => none

/-- The items that keep the place of an instruction: a free value stands alone. -/
def items : Instruction α → List (Value α)
  | .row items => items
  | .value (.array items) => items
  | .value v => [v]

/-- The instruction as a value. -/
def toValue : Instruction α → Value α
  | .row items => .array items
  | .value v => v

/-- The instruction as messages show it; a row that is known to be one stands in parentheses. -/
def shown [Written α] : Instruction α → String
  | .value v => v.shown
  | .row [v] => "(" ++ v.shown ++ ",)"
  | .row items => "(" ++ Value.shownItems items ++ ")"

end Instruction

/-- Why an argument does not fit its slot. -/
inductive Misfit where
  | notNumber
  | notFinite
  | notText
  | notColor
  | notFlag
  deriving DecidableEq, Repr

/-- The words for a misfit. -/
def Misfit.reason : Misfit → String
  | .notNumber => "must be number"
  | .notFinite => "must be finite"
  | .notText => "must be string"
  | .notColor => "not a valid color"
  | .notFlag => "must be boolean"

/-- The words for what a slot takes. -/
def SlotKind.expected : SlotKind → String
  | .number => "finite number"
  | .color => "color string"
  | .flag => "boolean"

/-- The rule that an instruction breaks. -/
inductive Fault (α : Type) where
  /-- It is not a row of items, or an empty one. -/
  | malformed (instruction : Instruction α)
  /-- Its first item is no name. -/
  | nameless (item : Value α)
  /-- Its name is that of no kind. -/
  | unknown (name : String)
  /-- It has more arguments than slots. -/
  | surplus (kind : Kind) (count : Nat)
  /-- A required argument is missing. -/
  | missing (kind : Kind) (slot : Slot)
  /-- An argument does not fit its slot. -/
  | unfit (kind : Kind) (slot : Slot) (misfit : Misfit) (value : Value α)
  /-- A line is neither an assignment nor a call. -/
  | unreadable (line : String)
  /-- A parameter of a line is no number. -/
  | notNumeral (name token : String)
  /-- The direction of an arc in a line is neither `0` nor `1`. -/
  | notDirection (kind : Kind) (value : Number α)
  deriving Repr

namespace Fault

variable {α : Type}

/-- The names of all kinds in a row. -/
def supported : String := String.intercalate ", " (Kind.all.map Kind.name)

/-- The message of a fault, without the place of the instruction. -/
def detail [Written α] : Fault α → String
  | .malformed instruction => "Empty or malformed instruction: " ++ instruction.shown
  | .nameless item => "Invalid command type in instruction: " ++ item.shown
  | .unknown name => "Unknown command: " ++ Text.quoted name ++ ". Supported: " ++ supported
  | .surplus kind count =>
    kind.name ++ " takes at most " ++ Decimal.integerText kind.slots.length ++
      " parameter(s), got " ++ Decimal.integerText count
  | .missing kind slot =>
    "Missing " ++ slot.name ++ " parameter for " ++ kind.name ++ " (must be " ++
      slot.kind.expected ++ ")"
  | .unfit kind slot misfit value =>
    "Invalid " ++ slot.name ++ " parameter for " ++ kind.name ++ " (" ++ misfit.reason ++ "): " ++
      value.shown
  | .unreadable line =>
    "Invalid syntax: \"" ++ line ++
      "\". Expected format: command(params) or fillStyle/strokeStyle = \"color\""
  | .notNumeral name token => "Invalid number: \"" ++ token ++ "\" in command: " ++ name
  | .notDirection kind value =>
    kind.name ++ " counterclockwise parameter must be 0 (false) or 1 (true), got " ++ value.text

/-- The command that a fault names; null where the instruction has no name. -/
def command : Fault α → Value α
  | .malformed _ => .null
  | .nameless item => item
  | .unknown name => .text name
  | .surplus kind _ => .text kind.name
  | .missing kind _ => .text kind.name
  | .unfit kind _ _ _ => .text kind.name
  | .unreadable _ => .null
  | .notNumeral name _ => .text name
  | .notDirection kind _ => .text kind.name

/-- The field that a fault points at, if it is a single one. -/
def field : Fault α → Option String
  | .malformed _ => some "command"
  | .nameless _ => some "command"
  | .unknown _ => some "command"
  | .surplus _ _ => none
  | .missing _ slot => some slot.name
  | .unfit _ slot _ _ => some slot.name
  | .unreadable _ => some "command"
  | .notNumeral _ _ => none
  | .notDirection _ _ => some "ccw"

/-- What was expected in the place of the fault. -/
def expected : Fault α → String
  | .malformed _ => "non-empty [name, ...args] list"
  | .nameless _ => "command name string"
  | .unknown _ => "known command name"
  | .surplus kind _ => "at most " ++ Decimal.integerText kind.slots.length ++ " arguments"
  | .missing _ slot => slot.kind.expected
  | .unfit _ slot _ _ => slot.kind.expected
  | .unreadable _ => "command(params)"
  | .notNumeral _ _ => SlotKind.number.expected
  | .notDirection _ _ => "0 or 1"

/-- What was found in the place of the fault. -/
def received : Fault α → Value α
  | .malformed instruction => instruction.toValue
  | .nameless item => item
  | .unknown name => .text name
  | .surplus _ count => .int count
  | .missing _ _ => .null
  | .unfit _ _ _ value => value
  | .unreadable line => .text line
  | .notNumeral _ token => .text token
  | .notDirection _ value => .number value

/-- Whether the fault is that the name is unknown. -/
def isUnknownName : Fault α → Bool
  | .unknown _ => true
  | _ => false

end Fault

/-- A fault with the place of its instruction, if that is known. -/
structure CommandError (α : Type) where
  index : Option Int
  fault : Fault α
  deriving Repr

/-- The text that reports the error. -/
def CommandError.message {α : Type} [Written α] (e : CommandError α) : String :=
  match e.index with
  | some index => "command " ++ Decimal.integerText index ++ ": " ++ e.fault.detail
  | none => e.fault.detail

end CanvasScript
