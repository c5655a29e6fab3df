import CanvasScript.Command.Fault

/-!
# Commands on the wire

An instruction is a row `[name, argument, …]`. It is checked in this order: its shape, its name, the
count of its arguments, and then the arguments from left to right.

Model of `decode_command` and `decode_command_list` with `ValidationReport` and
`ProgramValidationError`, of `encode_command` and `encode_command_list`, which are `Command.items`,
and of `is_stack_command` and `has_stack_commands`. An integer beyond the scalars raises an error in
`_check_arg` that no policy catches; it is kept apart from the faults (`Refusal.arithmetic`).

* `decode` is the command of an instruction, or the first rule that it breaks.
* `decodeAll` decodes a program under a policy: `skip` keeps the places of refused instructions, and
  `strict` refuses the program with all of its errors.
* `Command.items` writes a command back.

Out of scope: the log, to which the warnings of a report are written as well.
-/

namespace CanvasScript

/-- Why an instruction gives no command: it breaks a rule, or one of its integers lies beyond the
scalars, which the rules do not cover. -/
inductive Refusal (α : Type) where
  | fault (fault : Fault α)
  | arithmetic (fault : ArithmeticFault)
  deriving Repr

/-- What becomes of a program with instructions that are refused. -/
inductive Policy where
  | skip
  | strict
  deriving DecidableEq, Repr

/-- The policy of a name. -/
def Policy.ofName? : String → Option Policy
  | "skip" => some .skip
  | "strict" => some .strict
  | _ => none

/-- Why a program is refused as a whole. -/
inductive ProgramError (α : Type) where
  /-- The policy is none. -/
  | unknownPolicy (policy : String)
  /-- Some instructions break rules. -/
  | invalid (errors : List (CommandError α))
  /-- An integer lies beyond the scalars. -/
  | arithmetic (fault : ArithmeticFault)
  deriving Repr

/-- The text that reports the error. -/
def ProgramError.message {α : Type} [Written α] : ProgramError α → String
  | .unknownPolicy policy => "unknown validation policy: " ++ policy
  | .invalid errors =>
    "Program validation failed: " ++ String.intercalate "; " (errors.map CommandError.message)
  | .arithmetic fault => fault.message

/-- A decoded program: a command for every instruction, and an error for every refused one. -/
structure Decoded (α : Type) where
  commands : List (Command α)
  errors : List (CommandError α)
  deriving Repr

variable {α : Type} [Written α]

/-- The policy that a value names. -/
def Policy.ofValue? (v : Value α) : Except (ProgramError α) Policy :=
  match v with
  | .text name =>
    match Policy.ofName? name with
    | some policy => .ok policy
    | none => .error (.unknownPolicy name)
  | v => .error (.unknownPolicy v.plain)

namespace SlotKind

/-- The argument that a value gives to a slot, or why it does not fit. -/
def content? : (kind : SlotKind) → Value α → Except ArithmeticFault (Except Misfit (kind.Content α))
  | .number, .number n => do
    return if ← n.isFinite then .ok n else .error .notFinite
  | .number, _ => .ok (.error .notNumber)
  | .color, .text style => .ok (if Rgba.isStyle style then .ok style else .error .notColor)
  | .color, _ => .ok (.error .notText)
  | .flag, .flag b => .ok (.ok b)
  | .flag, _ => .ok (.error .notFlag)

end SlotKind

namespace Arguments

/-- The argument of one slot, or the rule that the value breaks. -/
def fit (kind : Kind) (slot : Slot) (value : Value α) :
    Except (Refusal α) (slot.kind.Content α) :=
  match slot.kind.content? value with
  | .ok (.ok content) => .ok content
  | .ok (.error misfit) => .error (.fault (.unfit kind slot misfit value))
  | .error fault => .error (.arithmetic fault)

/-- The argument of one slot from the value in its place, if there is any. -/
def read (kind : Kind) (slot : Slot) (value : Option (Value α)) :
    Except (Refusal α) (slot.Content α) :=
  match slot with
  | { name, kind := slotKind, isRequired := true } =>
    match value with
    | some v => fit kind { name, kind := slotKind, isRequired := true } v
    | none => .error (.fault (.missing kind { name, kind := slotKind, isRequired := true }))
  | { name, kind := slotKind, isRequired := false } =>
    match value with
    | none => .ok none
    | some .null => .ok none
    | some v => (fit kind { name, kind := slotKind, isRequired := false } v).map some

/-- The arguments of a row of slots from the values in their places, from left to right. -/
def readAll (kind : Kind) :
    (slots : List Slot) → List (Value α) → Except (Refusal α) (Arguments α slots)
  | [], _ => .ok ()
  | slot :: rest, values => do
    let content ← read kind slot values.head?
    let more ← readAll kind rest values.tail
    return (content, more)

end Arguments

namespace Command

/-- The command of a kind with some arguments. -/
def ofArguments (kind : Kind) (values : List (Value α)) : Except (Refusal α) (Command α) :=
  if kind.slots.length < values.length then .error (.fault (.surplus kind values.length))
  else (Arguments.readAll kind kind.slots values).map kind.command

/-- The command of an instruction. -/
def decode (instruction : Instruction α) : Except (Refusal α) (Command α) :=
  match instruction.items? with
  | none => .error (.fault (.malformed instruction))
  | some [] => .error (.fault (.malformed instruction))
  | some (.text name :: values) =>
    if name = "" then .error (.fault (.nameless (.text name)))
    else
      match Kind.ofName? name with
      | some kind => ofArguments kind values
      | none => .error (.fault (.unknown name))
  | some (item :: _) => .error (.fault (.nameless item))

/-- The command in the place of an instruction, with the error if the instruction is refused. -/
def decodeSlot (index : Nat) (instruction : Instruction α) :
    Except ArithmeticFault (Command α × Option (CommandError α)) :=
  match decode instruction with
  | .ok command => .ok (command, none)
  | .error (.fault fault) =>
    .ok (.invalid instruction.items fault.detail, some ⟨some index, fault⟩)
  | .error (.arithmetic fault) => .error fault

/-- The commands of the instructions from a place on. -/
def decodeFrom (index : Nat) : List (Instruction α) → Except ArithmeticFault (Decoded α)
  | [] => .ok ⟨[], []⟩
  | instruction :: rest => do
    let (command, error) ← decodeSlot index instruction
    let more ← decodeFrom (index + 1) rest
    return ⟨command :: more.commands, error.toList ++ more.errors⟩

/-- The commands of a program under a policy. -/
def decodeAll (policy : Policy) (instructions : List (Instruction α)) :
    Except (ProgramError α) (Decoded α) :=
  match decodeFrom 0 instructions with
  | .error fault => .error (.arithmetic fault)
  | .ok decoded =>
    if policy = .strict ∧ decoded.errors ≠ [] then .error (.invalid decoded.errors)
    else .ok decoded

end Command

namespace Decoded

/-- Whether no instruction was refused. -/
def isOk (decoded : Decoded α) : Bool := decoded.errors.isEmpty

/-- The texts of the errors. -/
def messages (decoded : Decoded α) : List String :=
  decoded.errors.map CommandError.message

/-- A warning for every instruction that was skipped. -/
def warnings (decoded : Decoded α) : List String :=
  decoded.errors.map fun e =>
    "skipping instruction " ++ Decimal.integerText (e.index.getD 0) ++ ": " ++ e.fault.detail

/-- The instructions of the commands. -/
def items (decoded : Decoded α) : List (List (Value α)) :=
  decoded.commands.map Command.items

end Decoded

namespace Instruction

/-- Whether an instruction has the form and the name of a save or a restore. -/
def isStack (instruction : Instruction α) : Bool :=
  match instruction.items? with
  | some (.text name :: _) => name == Kind.save.name || name == Kind.restore.name
  | _ => false

end Instruction

end CanvasScript
