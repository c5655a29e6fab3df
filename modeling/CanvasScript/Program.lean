import CanvasScript.Command.Wire
import CanvasScript.Json.Reader
import CanvasScript.Json.Writer

/-!
# Programs

A program has a title and rows of instructions. It is kept in a file as an object of the two; a file
may also hold a list of programs.

Model of `Program`, `program_from_dict`, `find_program`, and of what `save_program`, `load_program`
and `load_program_list` write and read.

* `Program.ofFields` checks only the form of the rows. `Program.checked` decodes them under a
  policy.
* `Program.saved` is the text of the file of a program; with a check, its rows are first decoded
  strictly and written without the nulls at their ends.
* `Program.find` picks a program by its title.

Out of scope: the log, which tells the places that `skip` keeps.
-/

namespace CanvasScript

/-- A titled list of instructions. -/
structure Program (α : Type) where
  title : String
  rows : List (List (Value α))
  deriving Repr

/-- Why a file gives no program. -/
inductive ProgramFileError (α : Type) where
  | document (error : Json.ReadError)
  /-- The file of a program holds no object. -/
  | notObject
  /-- The file of a list holds neither a list nor an object. -/
  | notList
  /-- An item of a list is no object. -/
  | itemNotObject
  /-- There is no list of instructions. -/
  | noRows
  /-- An instruction is not a row with items. -/
  | notRow (index : Nat)
  | program (error : ProgramError α)
  deriving Repr

/-- The text that reports the error; that of an unreadable file is not told. -/
def ProgramFileError.message {α : Type} [Written α] : ProgramFileError α → Option String
  | .document .malformed => none
  | .document (.tooLong digits) => some (Decimal.limitMessage digits)
  | .notObject => some "Program payload must be a JSON object"
  | .notList => some "Program list payload must be a JSON array or object"
  | .itemNotObject => some "Each program must be a JSON object"
  | .noRows => some "`transformations` must be a list"
  | .notRow index =>
    some ("transformation " ++ Decimal.integerText index ++ " must be a non-empty list")
  | .program error => some error.message

/-- Why a program is not saved. -/
inductive SaveError (α : Type) where
  /-- There are no instructions. -/
  | empty
  | program (error : ProgramError α)
  deriving Repr

/-- The text that reports the error. -/
def SaveError.message {α : Type} [Written α] : SaveError α → String
  | .empty => "No commands to save"
  | .program error => error.message

/-- Why no program is found. -/
inductive FindError where
  /-- There are no programs. -/
  | noPrograms
  /-- No program has the title, which is shown here. -/
  | noTitle (shown : String)
  deriving DecidableEq, Repr

/-- The text that reports the error. -/
def FindError.message : FindError → String
  | .noPrograms => "program list is empty"
  | .noTitle shown => "no program titled " ++ shown

namespace Program

/-- The title where none is given. -/
def defaultTitle : String := "Untitled"

section

variable {α : Type}

/-- The number of instructions. -/
def length (p : Program α) : Nat := p.rows.length

/-- The instructions of a program. -/
def instructions (p : Program α) : List (Instruction α) := p.rows.map .row

/-- The rows that values are, numbered from a place on. -/
def rowsFrom (index : Nat) :
    List (Value α) → Except (ProgramFileError α) (List (List (Value α)))
  | [] => .ok []
  | .array (item :: items) :: rest => do
    return (item :: items) :: (← rowsFrom (index + 1) rest)
  | _ :: _ => .error (.notRow index)

/-- The program as a value. -/
def toValue (p : Program α) : Value α :=
  .object [("title", .text p.title), ("transformations", .array (p.rows.map .array))]

end

variable {α : Type} [Written α]

/-- The title that a value gives. -/
def titleOf : Option (Value α) → String
  | some v => if v.isTrue then v.plain else defaultTitle
  | none => defaultTitle

/-- The program that named values give. -/
def ofFields (fields : Fields α) : Except (ProgramFileError α) (Program α) :=
  match fields.get? "transformations" with
  | some (.array items) => do
    let rows ← rowsFrom 0 items
    return ⟨titleOf (fields.get? "title"), rows⟩
  | _ => .error .noRows

/-- The program, if the policy that a value names lets it pass; null is no policy and checks
nothing. -/
def checked (policy : Value α) (p : Program α) : Except (ProgramFileError α) (Program α) :=
  if policy.isNull then .ok p
  else do
    let policy ← (Policy.ofValue? policy).mapError .program
    let _ ← (Command.decodeAll policy p.instructions).mapError .program
    return p

/-- The program that named values give, checked under a policy. -/
def load (policy : Value α) (fields : Fields α) : Except (ProgramFileError α) (Program α) := do
  checked policy (← ofFields fields)

/-- The program of a file. -/
def read (policy : Value α) (text : String) : Except (ProgramFileError α) (Program α) := do
  match ← (Json.read text).mapError .document with
  | .object fields => load policy fields
  | _ => throw .notObject

/-- The program that an item of a list gives. -/
def ofItem (policy : Value α) : Value α → Except (ProgramFileError α) (Program α)
  | .object fields => load policy fields
  | _ => .error .itemNotObject

/-- The programs of a file; one that holds a single program is a list of one. -/
def readList (policy : Value α) (text : String) :
    Except (ProgramFileError α) (List (Program α)) := do
  match ← (Json.read text).mapError .document with
  | .object fields => return [← load policy fields]
  | .array items => items.mapM (ofItem policy)
  | _ => throw .notList

/-- The program of a title among some; null asks for the first. -/
def find (title : Value α) (programs : List (Program α)) : Except FindError (Program α) :=
  match programs with
  | [] => .error .noPrograms
  | first :: _ =>
    match title with
    | .null => .ok first
    | .text t =>
      match programs.find? (·.title == t) with
      | some p => .ok p
      | none => .error (.noTitle title.shown)
    | _ => .error (.noTitle title.shown)

/-- The program with its rows decoded strictly and encoded again. -/
def normalized (p : Program α) : Except (SaveError α) (Program α) :=
  if p.rows.isEmpty then .error .empty
  else do
    let decoded ← (Command.decodeAll .strict p.instructions).mapError .program
    return { p with rows := decoded.items }

/-- The text of the file of a program. -/
def text (p : Program α) : String := Json.indented p.toValue ++ "\n"

/-- The text of the file of a program, after a check if one is wanted. -/
def saved (validate : Bool) (p : Program α) : Except (SaveError α) String :=
  if validate then p.normalized.map text else .ok p.text

end Program

end CanvasScript
