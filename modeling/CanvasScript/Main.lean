import CanvasScript.CommandLine.Session
import CanvasScript.Png
import CanvasScript.Scalar.Binary64

/-!
# The program

The program carries out the session of its command line. Only this module touches the world: it
reads the files that the session asks for, prints what it says and writes what it saves.

Out of scope: the log, and the texts on the error stream.
-/

open CanvasScript CanvasScript.CommandLine

/-- The text of a file of the world. -/
def readWorld (path : Path) : IO (Except FileFault String) := do
  try
    return .ok (← IO.FS.readFile path.text)
  catch error =>
    return .error (match error with
      | .inappropriateType .. => .isFolder
      | .noFileOrDirectory .. => .missing
      | _ => .notText)

/-- The paths of the files that a command line reads. -/
def filesRead (words : List String) : List Path :=
  match (Invocation.read words : Except Halt (Invocation Float)) with
  | .ok invocation => invocation.settings.toList ++ [invocation.source.path]
  | .error _ => []

/-- Saves a picture in the world. -/
def saveWorld (path : Path) (canvas : Canvas) : IO (Except SaveFault Unit) := do
  match PictureFormat.ofPath path with
  | .error fault => return .error fault
  | .ok format =>
    if format.hasTransparency then
      IO.FS.writeBinFile path.text (Png.encode canvas)
      return .ok ()
    else return .error (.opaqueFormat format)

/-- Carries out actions. The result is the exit code, where `code` is that of the session. -/
def carryOut (code : UInt32) : List Action → IO UInt32
  | [] => return code
  | .say text :: rest => do
    IO.println text
    carryOut code rest
  | .makeFolders path :: rest => do
    IO.FS.createDirAll path.text
    carryOut code rest
  | .save path canvas :: rest => do
    match ← saveWorld path canvas with
    | .ok _ => carryOut code rest
    | .error fault =>
      IO.eprintln ((fault.message).getD "the picture cannot be saved")
      return 1

/-- How the program is used. -/
def usage : String :=
  "usage: canvas-script [-h] [--log-level LEVEL] [--config FILE] TASK PROGRAM [options]\n" ++
  "tasks:\n" ++
  "  validate  [--title TITLE] [--policy skip|strict]\n" ++
  "  trace     [--param POSITION] [--backward]\n" ++
  "  render    [--param POSITION] [--backward] --out PICTURE [--final]\n" ++
  "  play      [--backward] --out-dir FOLDER [--fps N] [--present-fps N] [--max-frames N]"

/-- The program. -/
def main (words : List String) : IO UInt32 := do
  let files ← (filesRead words).mapM fun path => return (path, ← readWorld path)
  let reader : Reader := fun path => (files.lookup path).getD (.error .missing)
  let (actions, finish) : List Action × Finish Float := Session.ofWords reader words
  match finish with
  | .exit code =>
    if actions.isEmpty && code = 0 then IO.println usage
    if actions.isEmpty && code = 2 then IO.eprintln usage
    carryOut (UInt32.ofNat code) actions
  | .broken fault =>
    let code ← carryOut 1 actions
    IO.eprintln (fault.message.getD "a file cannot be used")
    return code
