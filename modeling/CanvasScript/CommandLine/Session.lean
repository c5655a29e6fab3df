import CanvasScript.Command.Line
import CanvasScript.CommandLine.Invocation
import CanvasScript.CommandLine.Picture
import CanvasScript.Playback.Run
import CanvasScript.Program
import CanvasScript.Raster
import CanvasScript.View

/-!
# Sessions

A session does what a command line asks for. It reads files, and what it does to the world is a list
of actions: lines that it says, folders that it makes and pictures that it saves. It ends with an
exit code, or breaks off with a fault.

Model of `main` behind its options, of `_load_raws` and `_build_view`, and of `write_frame` as
`keepFrame`.

* `Session.perform` is the session of an invocation, given the texts of files.
* `Outcome.ofActions` carries actions out on a tree of files; the first one that fails ends them.
* `Outcome.ofWords` is what comes of the words of a command line.

Out of scope: the log, and how an error that nothing catches is reported.
-/

namespace CanvasScript.CommandLine

open Scalar

/-- What a session does. -/
inductive Action where
  /-- Says a line. -/
  | say (text : String)
  /-- Makes the folders of a path. -/
  | makeFolders (path : Path)
  /-- Saves a picture. -/
  | save (path : Path) (canvas : Canvas)
  deriving Repr

/-- Why a session breaks off. -/
inductive SessionFault (α : Type) where
  | file (fault : FileFault)
  | save (fault : SaveFault)
  | settings (error : SettingsFileError)
  | programFile (error : ProgramFileError α)
  | find (error : FindError)
  | compile (error : CompileError α)
  | render (error : RenderError)
  | setup (error : SetupError)
  | clock (error : ClockError)
  | start (error : Playback.StartError)
  | playback (error : PlaybackError RenderError)
  deriving Repr

/-- The text that reports the fault; that of a file is not told. -/
def SessionFault.message {α : Type} [Written α] : SessionFault α → Option String
  | .file _ => none
  | .save fault => fault.message
  | .settings error => error.message
  | .programFile error => error.message
  | .find error => some error.message
  | .compile error => some error.message
  | .render error => some error.message
  | .setup error => some error.message
  | .clock error => some error.message
  | .start error => some error.message
  | .playback error => some (error.message RenderError.message)

/-- How a session ends. -/
inductive Finish (α : Type) where
  | exit (code : Nat)
  | broken (fault : SessionFault α)
  deriving Repr

/-- How a file is read. -/
abbrev Reader := Path → Except FileFault String

/-- A part of a session, with the actions that it adds; it may end the session. -/
abbrev Session (α β : Type) := ExceptT (Finish α) (StateM (List Action)) β

namespace Session

section

variable {α β : Type}

/-- Does something. -/
def act (action : Action) : Session α Unit := fun actions => (.ok (), actions ++ [action])

/-- Says a line. -/
def say (text : String) : Session α Unit := act (.say text)

/-- Ends with an exit code. -/
def exit (code : Nat) : Session α β := throw (.exit code)

/-- Breaks off where a result is an error. -/
def orBreak {ε : Type} (fault : ε → SessionFault α) : Except ε β → Session α β
  | .ok result => return result
  | .error error => throw (.broken (fault error))

end

/-- A program as rows of instructions. -/
abbrev Rows (α : Type) := List (List (Value α))

/-- The surface of a view. -/
abbrev Screen (α : Type) := View α (Raster α)

/-- The suffix of programs in lines. -/
def linesSuffix : String := ".txt"

/-- The text that reports a program that cannot be played backward. -/
def backwardText : String :=
  "error: backward playback is not available for programs containing save/restore"

/-- The gap between a picture and that of the final result. -/
def pictureGap : Nat := 8

/-- The name of the picture of a frame. -/
def frameName (number : Nat) : String :=
  "frame_" ++ String.ofList (Decimal.padLeft 4 (Decimal.digits number)) ++ ".png"

variable {α : Type} [Written α]

/-- The settings of a file. What stands at no file is not there. -/
def loadSettings (reader : Reader) : Option Path → Session α (Settings α)
  | none => return Settings.default
  | some path =>
    match reader path with
    | .ok text => orBreak .settings (Settings.read text)
    | .error .missing | .error .notFolder => throw (.broken (.settings (.missing path.text)))
    | .error fault => throw (.broken (.file fault))

/-- The line that reports an error of a program in lines. -/
def lineError (error : CommandError α) : String :=
  "line " ++ Decimal.integerText (error.index.getD 0) ++ ": " ++ error.fault.detail

/-- The program of a source. -/
def loadRows (reader : Reader) (source : Source) : Session α (Rows α) := do
  let text ← orBreak .file (reader source.path)
  if source.path.suffix = linesSuffix then
    match readLines text with
    | .ok rows => return rows
    | .error (.invalid errors) =>
      errors.forM fun error => say (lineError error)
      exit 1
    | .error error => throw (.broken (.compile (.program error)))
  else
    let programs ← orBreak .programFile (Program.readList .null text)
    let title : Value α := (source.title.map Value.text).getD .null
    let program ← orBreak .find (Program.find title programs)
    return program.rows

/-- Reports the instructions that break rules. -/
def validate (rows : Rows α) : Session α Unit := do
  let decoded ← orBreak (fun e => .compile (.program e)) (Command.decodeAll .skip (rows.map .row))
  decoded.messages.forM say
  if decoded.isOk then
    say ("ok: " ++ Decimal.integerText decoded.commands.length ++ " commands")
  else exit 1

/-- The timeline of a program. -/
def compile (settings : Settings α) (policy : Policy) (rows : Rows α) : Session α (Timeline α) :=
  let defaults := settings.defaults.map Value.text
  match Timeline.ofProgram policy defaults (rows.map .row) with
  | .ok (timeline, _) => return timeline
  | .error (.program (.invalid errors)) => do
    errors.forM fun error => say error.message
    exit 1
  | .error error => throw (.broken (.compile error))

/-- A view of a timeline on a white canvas. -/
def viewOf (settings : Settings α) (timeline : Timeline α) (direction : Direction)
    (showsFinal : Bool) : Except DirectionError (Screen α) :=
  View.ofDirection timeline settings
    (Raster.start settings.canvasSize settings.canvasSize Rgba.white Affine.identity) direction
    showsFinal

/-- A view of a program, unless it cannot be shown in the direction. -/
def openView (settings : Settings α) (policy : Policy) (direction : Direction) (rows : Rows α) :
    Session α (Screen α) := do
  if direction = .backward && (rows.map Instruction.row).any Instruction.isStack then
    say backwardText
    exit 2
  let timeline ← compile settings policy rows
  match viewOf settings timeline direction false with
  | .ok view => return view
  | .error error =>
    say ("error: " ++ error.message)
    exit 2

/-- The trace of a drawing, and the view after it. -/
def draw (position : α) (view : Screen α) : Session α (Trace α × Screen α) :=
  match (View.draw (.ok position)).run view with
  | (.ok trace, view) => return (trace, view)
  | (.error error, _) => throw (.broken (.render error))

/-- The canvas with the final result of a view. -/
def finalCanvas (settings : Settings α) (view : Screen α) : Session α Canvas :=
  match viewOf settings view.timeline view.direction true with
  | .error error => throw (.broken (.render (.direction error)))
  | .ok final =>
    match View.drawFinal.run final with
    | (.ok _, final) => return final.surface.canvas
    | (.error error, _) => throw (.broken (.render error))

/-- Saves a picture of a position of a view. -/
def render (settings : Settings α) (position : α) (out : Path) (withFinal : Bool)
    (view : Screen α) : Session α Unit := do
  let (_, view) ← draw position view
  let canvas := view.surface.canvas
  if withFinal then
    act (.save out (canvas.beside (← finalCanvas settings view) pictureGap))
  else act (.save out canvas)
  say ("wrote " ++ out.text)

/-- Keeps a frame of a view as a picture in a folder, the last frame first. -/
def keepFrame (folder : Path) : Presenter (Screen α × List Action) α :=
  fun number _ _ (view, frames) =>
    (view, .save (folder.child (frameName number)) view.surface.canvas :: frames)

/-- Plays a view from one end to the other on a clock. The result is the count of ticks. -/
def playThrough (folder : Path) (clock : FrameClock α) (frames : Nat) (backward : Bool) :
    Playing RenderError (Screen α × List Action) α Nat := do
  Scheduler.play View.listener.beside backward none
  Playback.run View.listener.beside (some (keepFrame folder)) clock zero frames

/-- Plays a view and saves the frames that are presented. -/
def play (direction : Direction) (folder : Path) (rate presentRate frames : Int)
    (view : Screen α) : Session α Unit := do
  act (.makeFolders folder)
  let scheduler ← orBreak .setup view.scheduler
  let clock ← orBreak .clock (FrameClock.ofRates (.int rate) (some (.int presentRate)))
  let limit ← orBreak .start (Playback.frameLimit clock frames)
  let (ticks, scheduler, _, kept) :=
    (playThrough folder clock limit (direction = .backward)).run (scheduler, view, [])
  kept.reverse.forM act
  let ticks ← orBreak .playback ticks
  say ("play complete: ticks=" ++ Decimal.integerText ticks ++ " final_param=" ++
    Written.fixed 3 scheduler.value)

/-- Does a task with a program. -/
def perform (reader : Reader) (invocation : Invocation α) : Session α Unit := do
  let settings ← loadSettings reader invocation.settings
  let source := invocation.source
  let rows ← loadRows reader source
  match invocation.task with
  | .validate => validate rows
  | .trace position direction =>
    let (trace, _) ← draw position (← openView settings source.policy direction rows)
    say trace.text
  | .render position direction out withFinal =>
    render settings position out withFinal (← openView settings source.policy direction rows)
  | .play direction folder rate presentRate frames =>
    play direction folder rate presentRate frames
      (← openView settings source.policy direction rows)

/-- The actions of a command line, and how it ends. -/
def ofWords (reader : Reader) (words : List String) : List Action × Finish α :=
  match Invocation.read words with
  | .error .help => ([], .exit 0)
  | .error .refused => ([], .exit 2)
  | .ok invocation =>
    match perform reader invocation [] with
    | (.ok _, actions) => (actions, .exit 0)
    | (.error finish, actions) => (actions, finish)

end Session

/-- What comes of a session. -/
structure Outcome (α : Type) where
  /-- What was said. -/
  output : String
  tree : FileTree
  finish : Finish α

namespace Outcome

variable {α : Type}

/-- What comes of actions, when `finish` is how the session ends after them. -/
def ofActions (finish : Finish α) (output : String) (tree : FileTree) :
    List Action → Outcome α
  | [] => ⟨output, tree, finish⟩
  | .say text :: rest => ofActions finish (output ++ text ++ "\n") tree rest
  | .makeFolders path :: rest =>
    match tree.makeFolders path with
    | .ok tree => ofActions finish output tree rest
    | .error fault => ⟨output, tree, .broken (.file fault)⟩
  | .save path canvas :: rest =>
    match savePicture tree path canvas with
    | .ok tree => ofActions finish output tree rest
    | .error fault => ⟨output, tree, .broken (.save fault)⟩

/-- What comes of the words of a command line in a tree of files. -/
def ofWords [Written α] (tree : FileTree) (words : List String) : Outcome α :=
  let (actions, finish) := Session.ofWords tree.read words
  ofActions finish "" tree actions

end Outcome

end CanvasScript.CommandLine
