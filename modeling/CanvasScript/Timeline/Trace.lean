import CanvasScript.Timeline.Position

/-!
# Traces

A trace shows a program at a position: for every step the statements that it stands for, with its
numbers as far as they have come, and whether it is done, active or pending.

Model of `Trace`, `TraceLine`, `build_trace`, `describe_step` and `_with_style`. Numbers are written
as `_f1`, `_f2` and `_num` write them.

* `Step.describe t` is what a step says at `t` of its way. A drawing is preceded by its style where
  that is not the one of the step before.
* `Trace.cursor` is the step before which the position stands, and `Trace.active` the step inside
  which it stands.
* `Trace.text` writes the trace, with a line for the cursor.

Out of scope: numbers that are too long to be written or beyond the scalars. No decoded command has
one (`Proofs/Timeline/Unfailing`).
-/

namespace CanvasScript

open Scalar

/-- A statement of a trace. -/
inductive Statement (α : Type) where
  | translate (x y : α)
  | rotate (angle : α)
  | scale (x y : α)
  | shear (x y : α)
  | matrix (m : Affine α)
  | save
  | restore
  | style (paint : Paint) (color : String)
  | draw (paint : Paint) (figure : Figure α)
  | skipped (reason : String)
  deriving DecidableEq, Repr

/-- How far a step has come. -/
inductive Progress where
  | done
  | active
  | pending
  deriving DecidableEq, Repr

/-- The word for the progress. -/
def Progress.name : Progress → String
  | .done => "done"
  | .active => "active"
  | .pending => "pending"

/-- A step at a position. -/
structure TraceLine (α : Type) where
  index : Nat
  statements : List (Statement α)
  progress : Progress
  amount : α
  deriving Repr

/-- A program at a position. -/
structure Trace (α : Type) where
  lines : List (TraceLine α)
  position : α
  direction : Direction
  deriving Repr

section

variable {α : Type} [Scalar α]

namespace Motion

/-- A motion at `t` of its way, as a statement. -/
def statement (t : α) : Motion α → Statement α
  | .translate x y => .translate (x.toScalar * t) (y.toScalar * t)
  | .rotate angle => .rotate (angle.toScalar * t)
  | .scale x y => .scale (lerp one x.toScalar t) (lerp one y.toScalar t)
  | .shear x y => .shear (x.toScalar * t) (y.toScalar * t)
  | .matrix a b c d e f => .matrix ((Motion.matrix a b c d e f).partway t)

end Motion

namespace Step

/-- What a step says at `t` of its way. -/
def describe (step : Step α) (t : α) : List (Statement α) :=
  match step.command with
  | .move motion => [motion.statement t]
  | .save => [.save]
  | .restore => [.restore]
  | .style paint _ => [.style paint (step.style.get paint)]
  | .draw paint figure _ =>
    if step.shows.get paint then [.style paint (step.style.get paint), .draw paint figure]
    else [.draw paint figure]
  | .invalid _ reason => [.skipped reason]

end Step

namespace Trace

/-- A trace without a program. -/
def empty (direction : Direction) : Trace α := ⟨[], zero, direction⟩

/-- How much of step `i` is done at a position. -/
def amount (i : Nat) (position : α) : α :=
  if position ≤ ofInt i then zero else least one (position - ofInt i)

/-- How far step `i` has come at a position. -/
def progress (i : Nat) (position : α) : Progress :=
  if ofInt i < position ∧ position < ofInt (i + 1) then .active
  else if one ≤ amount i position then .done
  else .pending

/-- The line of a step. Backward playback shows what is left of a step instead of what is done. -/
def line (position : α) (direction : Direction) (step : Step α) : TraceLine α :=
  let done := amount step.index position
  let shown :=
    match direction with
    | .forward => done
    | .backward => one - done
  { index := step.index
    statements := step.describe shown
    progress := progress step.index position
    amount := done }

/-- The trace of a timeline at a position. -/
def ofSteps (steps : List (Step α)) (position : α) (direction : Direction) : Trace α :=
  ⟨steps.map (line position direction), position, direction⟩

/-- The step before which the position stands, if it is an integer. -/
def cursor (trace : Trace α) : Option Int :=
  if trace.lines.isEmpty then none else whole? trace.position

/-- The step inside which the position stands. -/
def active (trace : Trace α) : Option Nat :=
  (trace.lines.find? (·.progress = .active)).map (·.index)

end Trace

end

section

variable {α : Type} [Written α]

/-- Numbers in a row, with commas between them. -/
def commaSeparated (texts : List String) : String := String.intercalate "," texts

namespace Statement

/-- A scalar with a count of decimals; a negative zero counts as zero. -/
def decimal (places : Nat) (x : α) : String := Written.fixed places (x + zero)

/-- The call of a name with numbers of a count of decimals. -/
def call (name : String) (places : Nat) (xs : List α) : String :=
  name ++ "(" ++ commaSeparated (xs.map (decimal places)) ++ ");"

/-- The kind of a drawn figure. -/
def kindOf (paint : Paint) : Figure α → Kind
  | .rect _ _ _ _ => .rect paint
  | .triangle _ _ _ _ _ _ => .triangle paint
  | .arc _ _ _ _ _ _ => .arc paint

/-- The text of a statement. -/
def text : Statement α → String
  | .translate x y => call Kind.translate.name 1 [x, y]
  | .rotate angle => call Kind.rotate.name 1 [angle]
  | .scale x y => call Kind.scale.name 1 [x, y]
  | .shear x y => call Kind.shear.name 2 [x, y]
  | .matrix m => call Kind.matrix.name 2 m.entries
  | .save => "save();"
  | .restore => "restore();"
  | .style paint color => (Kind.style paint).name ++ " = \"" ++ color ++ "\";"
  | .draw paint figure =>
    (kindOf paint figure).name ++ "(" ++ commaSeparated (figure.numbers.map Number.plainText) ++
      (if figure.isCounterclockwise then ",true" else "") ++ ");"
  | .skipped reason => "// skipped: " ++ reason

end Statement

namespace Trace

/-- The line that shows the cursor. -/
def cursorLine : String := "------------------------"

/-- The lines of a step: a mark stands before the active one. -/
def stepLines (line : TraceLine α) : List String :=
  line.statements.map fun statement =>
    (if line.progress = .active then "> " else "  ") ++ statement.text

/-- The lines of the trace. -/
def textLines (trace : Trace α) : List String :=
  let cursor := trace.cursor
  (trace.lines.flatMap fun line =>
      (if cursor = some (line.index : Int) then [cursorLine] else []) ++ stepLines line) ++
    if cursor = some (trace.lines.length : Int) then [cursorLine] else []

/-- The text of the trace. -/
def text (trace : Trace α) : String := String.intercalate "\n" trace.textLines

end Trace

end

end CanvasScript
