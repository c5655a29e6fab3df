import CanvasScript.Geometry.Arc
import CanvasScript.Raster.Canvas
import CanvasScript.Raster.Line
import CanvasScript.Raster.Polygon
import CanvasScript.Surface

/-!
# Raster surfaces

A raster surface draws on a canvas. Filled figures select the cells whose centres lie inside them,
lines the squares about the cells of their path; the colour of the shape is laid over those cells.

Model of `RasterSurface`: `paint` is `_fill` and `_stroke`, with `_device` as the transform of the
points and `_device_width` as `deviceWidth`.

* `Figure.points` is the outline of a figure, and `Raster.maskOf` the cells of a shape.
* Both the frame and the canvas stay as they are where a shape cannot be drawn.

Out of scope: canvases that are too large for the memory.
-/

namespace CanvasScript

open Scalar

/-- A surface that draws on a canvas. -/
structure Raster (α : Type) where
  frame : Frame α
  background : Rgba
  canvas : Canvas
  deriving Repr

variable {α : Type} [Scalar α]

namespace Figure

/-- A point of two numbers. -/
def pointOf (x y : Number α) : Except ArithmeticFault (Point α) :=
  return ⟨← x.toScalar?, ← y.toScalar?⟩

/-- The points of the outline of a figure. -/
def points : Figure α → Except ArithmeticFault (List (Point α))
  | .rect x y width height => do
    let right ← x.add width
    let bottom ← y.add height
    return [← pointOf x y, ← pointOf x bottom, ← pointOf right bottom, ← pointOf right y]
  | .triangle x₁ y₁ x₂ y₂ x₃ y₃ =>
    return [← pointOf x₁ y₁, ← pointOf x₂ y₂, ← pointOf x₃ y₃]
  | .arc x y radius start finish counterclockwise => do
    Arc.points (← x.toScalar?) (← y.toScalar?) (← radius.toScalar?) (← start.toScalar?)
      (← finish.toScalar?) (counterclockwise.getD false)

/-- Whether the outline of a stroked figure leads back to its start. -/
def isClosed : Figure α → Bool
  | .arc _ _ _ _ _ _ => false
  | _ => true

end Figure

namespace Raster

/-- The text that reports a canvas without cells. -/
def sizeMessage : String := "width and height must be > 0"

/-- A raster surface with a canvas in its background colour. -/
def start (width height : Nat) (background : Rgba) (transform : Affine α) : Raster α :=
  ⟨⟨transform, []⟩, background, Canvas.plain width height background⟩

/-- A raster surface of a size, which must be positive. -/
def ofSize? (width height : Int) (background : Rgba) (transform : Affine α) :
    Option (Raster α) :=
  if width ≤ 0 ∨ height ≤ 0 then none
  else some (start width.toNat height.toNat background transform)

/-- The width in cells of a line that has a width in the frame. -/
def deviceWidth (transform : Affine α) (width : Number α) : Except ArithmeticFault Int := do
  let n ← round ((← width.toScalar?) * sqrt (Scalar.abs transform.determinant))
  return max 1 n

/-- The cells of a canvas that a shape selects. -/
def maskOf (columns rows : Nat) (transform : Affine α) (shape : Shape α) (width : Number α) :
    Except ArithmeticFault Mask := do
  match shape with
  | .figure .fill figure =>
    Polygon.mask columns rows ((← figure.points).map transform.apply)
  | .figure .stroke figure =>
    let points := (← figure.points).map transform.apply
    Stroke.mask columns rows points (← deviceWidth transform width) figure.isClosed
  | .line x₀ y₀ x₁ y₁ =>
    let points := [← Figure.pointOf x₀ y₀, ← Figure.pointOf x₁ y₁].map transform.apply
    Stroke.mask columns rows points (← deviceWidth transform width) false

/-- The surface with a shape drawn, unless it cannot be. -/
def paint (raster : Raster α) (shape : Shape α) (width : Number α) (color : Rgba) :
    Except DrawFault Unit × Raster α :=
  match maskOf raster.canvas.width raster.canvas.height raster.frame.transform shape width with
  | .error fault => (.error (.arithmetic fault), raster)
  | .ok mask => (.ok (), { raster with canvas := raster.canvas.paint mask color })

/-- The surface with all cells in one colour. -/
def fill (raster : Raster α) (color : Rgba) : Raster α :=
  { raster with canvas := raster.canvas.fill color }

instance : Surface α (Raster α) where
  frame := frame
  withFrame raster frame := { raster with frame }
  clear raster := raster.fill raster.background
  paint shape width color := fun raster => raster.paint shape width color

end Raster

end CanvasScript
