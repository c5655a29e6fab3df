import CanvasScript.Value

/-!
# Commands

A drawing program is a list of commands: motions of the drawing frame, saving and restoring, colour
styles, and figures that are filled or stroked. A slot whose instruction was refused keeps its place
as an invalid command, which does nothing.

Model of the records of commands. `Translate`, `Rotate`, `Scale`, `Shear` and `GenericAffine` are
the motions; `SetFillColor` and `SetStrokeColor` are one command with a paint, and so are the
records of figures, from `FillRect` to `StrokeArc`; `InvalidCommand` keeps the place of what was
refused.

Out of scope: records that were not decoded, whose fields may hold values of other types. Decoding
ensures more than types: numbers are finite, and colours are styles and so not empty
(`Command.Fits`).
-/

namespace CanvasScript

/-- A motion of the drawing frame. -/
inductive Motion (α : Type) where
  | translate (x y : Number α)
  | rotate (angle : Number α)
  | scale (x y : Number α)
  | shear (x y : Number α)
  | matrix (a b c d e f : Number α)
  deriving DecidableEq, Repr

/-- The two ways to draw a figure. -/
inductive Paint where
  | fill
  | stroke
  deriving DecidableEq, Repr

/-- A figure in the coordinates of the drawing frame. Angles are in degrees, and an arc runs
clockwise unless it is said to run counterclockwise. -/
inductive Figure (α : Type) where
  | rect (x y width height : Number α)
  | triangle (x₁ y₁ x₂ y₂ x₃ y₃ : Number α)
  | arc (x y radius start finish : Number α) (counterclockwise : Option Bool)
  deriving DecidableEq, Repr

/-- A command of a drawing program. -/
inductive Command (α : Type) where
  /-- Moves the drawing frame. -/
  | move (motion : Motion α)
  /-- Remembers the drawing frame and the styles. -/
  | save
  /-- Brings back what was remembered last. -/
  | restore
  /-- Sets the style of fills or of strokes. -/
  | style (paint : Paint) (color : String)
  /-- Draws a figure, in a colour of its own if one is given. -/
  | draw (paint : Paint) (figure : Figure α) (color : Option String)
  /-- Keeps the place of an instruction that was refused. -/
  | invalid (items : List (Value α)) (reason : String)
  deriving Repr

/-- Whether an arc runs counterclockwise. -/
def Figure.isCounterclockwise {α : Type} : Figure α → Bool
  | .arc _ _ _ _ _ counterclockwise => counterclockwise.getD false
  | _ => false

namespace Command

variable {α : Type}

/-- Whether the command saves or restores. -/
def isStack : Command α → Bool
  | .save => true
  | .restore => true
  | _ => false

/-- Whether the command keeps the place of a refused instruction. -/
def isInvalid : Command α → Bool
  | .invalid _ _ => true
  | _ => false

end Command

end CanvasScript
