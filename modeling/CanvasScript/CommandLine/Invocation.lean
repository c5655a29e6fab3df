import CanvasScript.Command.Wire
import CanvasScript.CommandLine.Words
import CanvasScript.Decimal.Limit
import CanvasScript.Decimal.Numeral
import CanvasScript.Files.Path
import CanvasScript.Timeline.Position

/-!
# Invocations

An invocation is what a command line asks for: a task, the file of the program, and the settings.
The words before the name of the task are general options; those after it are read with the options
of the task, of which the last of a kind counts.

Model of the options that `main`, `_add_program_args` and `_add_position_args` declare.

* `Invocation.read` reads a command line. A word that fits nothing refuses it, but only after the
  words that follow have been read, since one of them may ask for help.

Out of scope: the texts of help and of refusals; only their exit codes are told.
-/

namespace CanvasScript.CommandLine

open Scalar

/-- Why a command line asks for nothing to be done. -/
inductive Halt where
  /-- Help is wanted. -/
  | help
  /-- The command line is not understood. -/
  | refused
  deriving DecidableEq, Repr

/-- The file of a program, and how it is used. -/
structure Source where
  path : Path
  title : Option String
  policy : Policy
  deriving Repr

/-- What is done with a program. -/
inductive Task (α : Type) where
  /-- Reports the instructions that break rules. -/
  | validate
  /-- Tells the trace at a position. -/
  | trace (position : α) (direction : Direction)
  /-- Saves a picture of a position, with one of the final result beside it if wanted. -/
  | render (position : α) (direction : Direction) (out : Path) (withFinal : Bool)
  /-- Plays the program and saves the frames that are presented. -/
  | play (direction : Direction) (folder : Path) (rate presentRate frames : Int)
  deriving Repr

/-- What a command line asks for. -/
structure Invocation (α : Type) where
  settings : Option Path
  source : Source
  task : Task α
  deriving Repr

/-- The general options. -/
inductive GeneralOption where
  | help
  | logLevel
  | settings
  deriving DecidableEq, Repr

/-- The options of tasks. -/
inductive TaskOption where
  | help
  | title
  | policy
  | position
  | backward
  | out
  | final
  | folder
  | rate
  | presentRate
  | frames
  deriving DecidableEq, Repr

/-- The names of tasks. -/
inductive TaskName where
  | validate
  | trace
  | render
  | play
  deriving DecidableEq, Repr

namespace TaskName

/-- The task of a name. -/
def ofText? : String → Option TaskName
  | "validate" => some .validate
  | "trace" => some .trace
  | "render" => some .render
  | "play" => some .play
  | _ => none

end TaskName

/-- Options by their names. -/
def named {ι : Type} (options : List (String × ι)) : Options ι :=
  options.map fun (name, option) => (name.toList, option)

/-- The general options by name. -/
def generalOptions : Options GeneralOption :=
  named [("-h", .help), ("--help", .help), ("--log-level", .logLevel), ("--config", .settings)]

/-- The options that every task has. -/
def sourceOptions : List (String × TaskOption) :=
  [("-h", .help), ("--help", .help), ("--title", .title), ("--policy", .policy)]

/-- The options of a position. -/
def positionOptions : List (String × TaskOption) :=
  [("--param", .position), ("--backward", .backward)]

/-- The options of a task by name. -/
def TaskName.options : TaskName → Options TaskOption
  | .validate => named sourceOptions
  | .trace => named (sourceOptions ++ positionOptions)
  | .render => named (sourceOptions ++ positionOptions ++ [("--out", .out), ("--final", .final)])
  | .play =>
    named (sourceOptions ++ [("--backward", .backward), ("--out-dir", .folder), ("--fps", .rate),
      ("--present-fps", .presentRate), ("--max-frames", .frames)])

/-- The levels of detail that a log may have. -/
def logLevels : List String := ["DEBUG", "INFO", "WARNING", "ERROR"]

/-- What comes of an option without a value when one is given to it. Only the short name of help may
have text attached. -/
def helpWith (value : String) (isAttached : Bool) : Halt :=
  if isAttached && allowsAttached 'h' value.toList then .help else .refused

/-- Whether an option takes a value. -/
def TaskOption.takesValue : TaskOption → Bool
  | .help | .backward | .final => false
  | _ => true

/-- What the words after the name of a task have given. -/
structure Given (α : Type) where
  path : Option Path
  title : Option String
  policy : Policy
  position : α
  direction : Direction
  out : Option Path
  withFinal : Bool
  folder : Option Path
  rate : Int
  presentRate : Int
  frames : Int
  /-- Whether some word fitted nothing. -/
  hasStray : Bool

variable {α : Type} [Written α]

/-- What holds where nothing is given. -/
def Given.nothing : Given α where
  path := none
  title := none
  policy := .skip
  position := zero
  direction := .forward
  out := none
  withFinal := false
  folder := none
  rate := 60
  presentRate := 10
  frames := 10000
  hasStray := false

/-- The integer of a text, unless it has too many digits. -/
def integer? (text : String) : Option Int :=
  (Decimal.readInteger? text.toList).bind fun n =>
    if (Decimal.digits n.natAbs).length ≤ Decimal.digitLimit then some n else none

/-- The scalar of a text. -/
def scalar? (text : String) : Option α :=
  (Decimal.Numeral.read? text.toList).map Decimal.Numeral.toScalar

namespace Given

/-- What is given when an option has a value, unless the value does not fit. -/
def set (given : Given α) (option : TaskOption) (value : String) : Option (Given α) :=
  match option with
  | .title => some { given with title := some value }
  | .policy => (Policy.ofName? value).map fun policy => { given with policy }
  | .position => (scalar? value).map fun position => { given with position }
  | .out => some { given with out := some (Path.ofText value) }
  | .folder => some { given with folder := some (Path.ofText value) }
  | .rate => (integer? value).map fun rate => { given with rate }
  | .presentRate => (integer? value).map fun presentRate => { given with presentRate }
  | .frames => (integer? value).map fun frames => { given with frames }
  | .help | .backward | .final => none

/-- What is given when an option without a value is there, unless it asks for help. -/
def flag (given : Given α) : TaskOption → Except Halt (Given α)
  | .backward => .ok { given with direction := .backward }
  | .final => .ok { given with withFinal := true }
  | .help => .error .help
  | _ => .error .refused

/-- What words give beside what is given already. The first plain word is the path of the program,
and the mark may stand next to it only. -/
def collect (given : Given α) : List (Word TaskOption × String) → Except Halt (Given α)
  | [] => .ok given
  | (.plain, text) :: rest =>
    match given.path with
    | some _ => collect { given with hasStray := true } rest
    | none =>
      let given := { given with path := some (Path.ofText text) }
      match rest with
      | (.mark, _) :: rest => collect given rest
      | rest => collect given rest
  | (.mark, _) :: rest =>
    collect { given with hasStray := given.hasStray || given.path.isSome } rest
  | (.unknown, _) :: rest => collect { given with hasStray := true } rest
  | (.option option none _, _) :: rest =>
    if option.takesValue then
      match rest with
      | (.plain, value) :: rest =>
        match given.set option value with
        | some given => collect given rest
        | none => .error .refused
      | _ => .error .refused
    else do collect (← given.flag option) rest
  | (.option option (some value) isAttached, _) :: rest =>
    if option.takesValue then
      match given.set option value with
      | some given => collect given rest
      | none => .error .refused
    else .error (helpWith value isAttached)

/-- The task that is asked for, unless something that it needs is not given. -/
def task? (given : Given α) : TaskName → Option (Task α)
  | .validate => some .validate
  | .trace => some (.trace given.position given.direction)
  | .render => given.out.map fun out => .render given.position given.direction out given.withFinal
  | .play =>
    given.folder.map fun folder =>
      .play given.direction folder given.rate given.presentRate given.frames

end Given

namespace Invocation

/-- What the words after the name of a task ask for, after a word that fitted nothing or without
one. -/
def readTask (hasStray : Bool) (settings : Option Path) (name : TaskName) (texts : List String) :
    Except Halt (Invocation α) := do
  let some words := wordsOf name.options texts | throw .refused
  let given ← Given.collect { (Given.nothing : Given α) with hasStray } words
  if given.hasStray then throw .refused
  match given.path, given.task? name with
  | some path, some task => return ⟨settings, ⟨path, given.title, given.policy⟩, task⟩
  | _, _ => throw .refused

/-- What words ask for, where some of the general options are read already. -/
def readGeneral (hasStray : Bool) (settings : Option Path) :
    List (Word GeneralOption × String) → Except Halt (Invocation α)
  | [] => .error .refused
  | (.plain, text) :: rest =>
    match TaskName.ofText? text with
    | some name => readTask hasStray settings name (rest.map (·.2))
    | none => .error .refused
  | (.mark, _) :: _ => .error .refused
  | (.unknown, _) :: rest => readGeneral true settings rest
  | (.option .help none _, _) :: _ => .error .help
  | (.option .help (some value) isAttached, _) :: _ => .error (helpWith value isAttached)
  | (.option .logLevel none _, _) :: (.plain, level) :: rest =>
    if level ∈ logLevels then readGeneral hasStray settings rest else .error .refused
  | (.option .logLevel (some level) _, _) :: rest =>
    if level ∈ logLevels then readGeneral hasStray settings rest else .error .refused
  | (.option .settings none _, _) :: (.plain, path) :: rest =>
    readGeneral hasStray (some (Path.ofText path)) rest
  | (.option .settings (some path) _, _) :: rest =>
    readGeneral hasStray (some (Path.ofText path)) rest
  | (.option .logLevel none _, _) :: _ => .error .refused
  | (.option .settings none _, _) :: _ => .error .refused

/-- What a command line asks for. -/
def read (texts : List String) : Except Halt (Invocation α) := do
  let some words := wordsOf generalOptions texts | throw .refused
  readGeneral false none words

end Invocation

end CanvasScript.CommandLine
