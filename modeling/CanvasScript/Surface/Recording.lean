import CanvasScript.Surface

/-!
# Recordings

A recording is a surface that keeps what is drawn on it: every shape with its colour and with the
transform in use. Line widths are not kept.

Model of `RecordingSurface` and `DrawCall`, where an operation and its arguments are one shape.
`shapes` are the calls but for lines, which only markers draw.
-/

namespace CanvasScript

/-- A shape that was drawn. -/
structure DrawCall (α : Type) where
  shape : Shape α
  color : Rgba
  transform : Affine α
  deriving DecidableEq, Repr

/-- A surface that keeps the shapes drawn on it. -/
structure Recording (α : Type) where
  frame : Frame α
  calls : List (DrawCall α)
  deriving DecidableEq, Repr

namespace Recording

variable {α : Type}

/-- A recording without calls, in a frame with a transform. -/
def start (transform : Affine α) : Recording α := ⟨⟨transform, []⟩, []⟩

/-- The recording with a shape drawn in its frame. -/
def record (recording : Recording α) (shape : Shape α) (color : Rgba) : Recording α :=
  { recording with calls := recording.calls ++ [⟨shape, color, recording.frame.transform⟩] }

instance : Surface α (Recording α) where
  frame := frame
  withFrame recording frame := { recording with frame }
  clear recording := { recording with calls := [] }
  paint shape _ color := modify fun recording => recording.record shape color

end Recording

/-- Whether a shape is a line. -/
def Shape.isLine {α : Type} : Shape α → Bool
  | .line _ _ _ _ => true
  | .figure _ _ => false

/-- The calls that drew something other than lines. -/
def Recording.shapes {α : Type} (recording : Recording α) : List (DrawCall α) :=
  recording.calls.filter (!·.shape.isLine)

end CanvasScript
