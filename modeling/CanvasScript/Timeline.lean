import CanvasScript.Command.Wire
import CanvasScript.Timeline.Pen

/-!
# Timelines

A timeline holds a step for every command of a program: the frame and the colours before and after
it, and those that it draws with. Position `i` of a timeline is the moment before step `i`.

Model of `compile_commands` and `compile_program` with `CompiledStep`, `StepEffect`, `StackWarning`
and `CompiledTimeline`. `stepOf` is the body of the loop. The styles of the step before are
`prev_fill_style` and `prev_stroke_style`; before the first step the defaults stand for them.

* `Timeline.compile` goes through the commands once, from left to right.
* `Step.progress t` is what a step has done at `t` of its way: motions run, drawings fade in, and
  saves and restores come into effect at the end.
* A program with saves or restores cannot be played backward.

Out of scope: the log, and commands that were not decoded. What a step computes is total here;
`Proofs/Timeline/Checked` treats the errors that its computation may raise.
-/

namespace CanvasScript

/-- A command with its effect. -/
structure Step (α : Type) where
  index : Nat
  command : Command α
  /-- The frame before the command. -/
  previous : Affine α
  /-- The frame after the command. -/
  matrix : Affine α
  /-- The colours in use before the command. -/
  before : PerPaint Rgba
  /-- The colours in use after the command. -/
  after : PerPaint Rgba
  /-- The colours that the command draws with. -/
  color : PerPaint Rgba
  /-- The styles that the command draws with. -/
  style : PerPaint String
  /-- Whether those styles differ from the ones of the step before. -/
  shows : PerPaint Bool
  deriving Repr

/-- A restore without a save that it would match. -/
structure StackWarning where
  index : Nat
  track : Track
  deriving DecidableEq, Repr

/-- The text of the warning. -/
def StackWarning.message (w : StackWarning) : String :=
  "restore() at index " ++ Decimal.integerText w.index ++ " called with empty stack (" ++
    w.track.name ++ " tracking - mismatched save/restore)"

/-- The steps of a program, and its warnings. -/
structure Timeline (α : Type) where
  steps : List (Step α)
  warnings : List StackWarning
  deriving Repr

/-- The effect of a step at a moment: the frame and the colours. -/
structure Effect (α : Type) where
  matrix : Affine α
  color : PerPaint Rgba
  deriving DecidableEq, Repr

namespace Step

open Scalar

variable {α : Type} [Scalar α]

/-- The transform that a step adds to the frame at `t` of its way. Only motions add any. -/
def partway (step : Step α) (t : α) : Affine α :=
  match step.command with
  | .move motion => motion.partway (unitClamp t)
  | _ => Affine.identity

/-- What a step has done at `t` of its way. -/
def progress (step : Step α) (t : α) : Effect α :=
  let t := unitClamp t
  match step.command with
  | .move _ => ⟨step.previous * step.partway t, step.after⟩
  | .style _ _ => ⟨step.previous, step.after⟩
  | .draw _ _ _ => ⟨step.previous, step.color.map fun c => c.fade t⟩
  | .save | .restore | .invalid _ _ =>
    if one ≤ t then ⟨step.matrix, step.after⟩ else ⟨step.previous, step.before⟩

end Step

namespace Command

variable {α : Type}

/-- The styles that a command draws with: a colour of its own counts for its own paint. -/
def drawnStyle (command : Command α) (style : PerPaint String) : PerPaint String :=
  match command with
  | .draw paint _ (some color) => style.set paint color
  | _ => style

end Command

namespace Timeline

variable {α : Type} [Scalar α]

/-- The step of a command. -/
def stepOf (defaults previous : PerPaint String) (index : Nat) (pen : Pen α)
    (command : Command α) : Except ColorError (Step α) := do
  let before ← (pen.resolved defaults).mapM Rgba.ofStyle
  let next := pen.apply command
  let after ← (next.resolved defaults).mapM Rgba.ofStyle
  let style := command.drawnStyle (next.resolved defaults)
  let color ← style.mapM Rgba.ofStyle
  return {
    index, command, before, after, color, style
    previous := pen.matrix
    matrix := next.matrix
    shows := style.zipWith (fun now earlier => now != earlier) previous }

/-- The steps from a command on, where `previous` are the styles of the step before. -/
def stepsFrom (defaults previous : PerPaint String) (index : Nat) (pen : Pen α) :
    List (Command α) → Except ColorError (List (Step α))
  | [] => .ok []
  | command :: rest => do
    let step ← stepOf defaults previous index pen command
    return step :: (← stepsFrom defaults step.style (index + 1) (pen.apply command) rest)

/-- The warnings from a command on. -/
def warningsFrom (index : Nat) (pen : Pen α) : List (Command α) → List StackWarning
  | [] => []
  | command :: rest =>
    (pen.missing command).map (StackWarning.mk index) ++
      warningsFrom (index + 1) (pen.apply command) rest

/-- The timeline of a program with default styles. -/
def compile (defaults : PerPaint String) (commands : List (Command α)) :
    Except ColorError (Timeline α) :=
  return {
    steps := ← stepsFrom defaults defaults 0 Pen.start commands
    warnings := warningsFrom 0 Pen.start commands }

/-- The number of steps. -/
def length (timeline : Timeline α) : Nat := timeline.steps.length

/-- Whether a step saves or restores. -/
def hasStack (timeline : Timeline α) : Bool := timeline.steps.any (·.command.isStack)

/-- Whether the timeline can be played backward. -/
def supportsBackward (timeline : Timeline α) : Bool := !timeline.hasStack

/-- The frame at the end. -/
def finalMatrix (timeline : Timeline α) : Affine α :=
  (timeline.steps.getLast?.map (·.matrix)).getD Affine.identity

end Timeline

/-- The style that is used where none is set. -/
def defaultStyle : String := "black"

/-- Why a program gives no timeline. -/
inductive CompileError (α : Type) where
  | program (error : ProgramError α)
  | color (error : ColorError)
  deriving Repr

/-- The text that reports the error. -/
def CompileError.message {α : Type} [Written α] : CompileError α → String
  | .program error => error.message
  | .color error => error.message

namespace Timeline

variable {α : Type} [Written α]

/-- The style that a value stands for, if it denotes a colour. -/
def styleOf? (v : Value α) : Except ColorError String :=
  match v with
  | .text style => (Rgba.ofStyle style).map fun _ => style
  | v => .error (.notText v.typeName)

/-- The timeline of decoded commands whose default styles are values of any kind. An empty program
uses no style, so then they are not looked at. -/
def ofCommands (defaults : PerPaint (Value α)) (commands : List (Command α)) :
    Except ColorError (Timeline α) :=
  if commands.isEmpty then .ok ⟨[], []⟩
  else do compile (← defaults.mapM styleOf?) commands

/-- The timeline of a program, with the errors of the instructions that it skips. -/
def ofProgram (policy : Policy) (defaults : PerPaint (Value α))
    (instructions : List (Instruction α)) :
    Except (CompileError α) (Timeline α × List (CommandError α)) := do
  let decoded ← (Command.decodeAll policy instructions).mapError .program
  let timeline ← (ofCommands defaults decoded.commands).mapError .color
  return (timeline, decoded.errors)

end Timeline

end CanvasScript
