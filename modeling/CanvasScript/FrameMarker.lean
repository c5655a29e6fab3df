import CanvasScript.Surface

/-!
# Frame markers

A marker shows a frame: a grid of thin lines, two bold axes, and heads of arrows at the ends of the
axes.

Model of `draw_frame_marker`.
-/

namespace CanvasScript.FrameMarker

open Scalar

variable {α : Type} [Scalar α]

/-- An integer as a scalar number. -/
def whole (n : Int) : Number α := .real (ofInt n)

/-- How far the axes reach. -/
def size : Int := 50

/-- The distance between two lines of the grid. -/
def spacing : Int := 10

/-- The width of the lines of the grid. -/
def gridWidth : Number α := .real half

/-- The width of the axes. -/
def axisWidth : Number α := whole 3

/-- Half the width of the heads of arrows. -/
def headHalf : Int := 3

/-- The length of the heads of arrows. -/
def headLength : Int := 6

/-- The line from the low to the high end at a place of the first axis. -/
def upright (place : Int) : Shape α :=
  .line (whole place) (whole (-size)) (whole place) (whole size)

/-- The line from the low to the high end at a place of the second axis. -/
def level (place : Int) : Shape α := .line (whole (-size)) (whole place) (whole size) (whole place)

/-- The places of the lines of the grid. -/
def places : List Int :=
  (List.range (2 * (size / spacing).toNat + 1)).map fun (i : Nat) => (i : Int) * spacing - size

/-- The head of the arrow along the second axis. -/
def secondHead : Shape α :=
  .figure .fill (.triangle (whole headHalf) (whole size) (whole 0) (whole (size + headLength))
    (whole (-headHalf)) (whole size))

/-- The head of the arrow along the first axis. -/
def firstHead : Shape α :=
  .figure .fill (.triangle (whole size) (whole (-headHalf)) (whole (size + headLength)) (whole 0)
    (whole size) (whole headHalf))

/-- The shapes of a marker with the widths of their lines. -/
def shapes : List (Shape α × Number α) :=
  (places.flatMap fun place => [(upright place, gridWidth), (level place, gridWidth)]) ++
    [(upright 0, axisWidth), (level 0, axisWidth), (secondHead, axisWidth), (firstHead, axisWidth)]

/-- Draws a marker in the frame of the surface. -/
def draw {σ : Type} [Surface α σ] (style : String) : Drawing σ Unit := do
  let color ← ExceptT.mk (pure ((Rgba.ofStyle style).mapError DrawFault.color))
  shapes.forM fun (shape, width) => Surface.paint shape width color

end CanvasScript.FrameMarker
