import CanvasScript.Raster.Blend
import CanvasScript.Raster.Mask

/-!
# Canvases

A canvas is a grid of colours, row by row from the top.

Model of `new_canvas`, `blend_mask` and `side_by_side`.

* `Canvas.paint` lays a colour over the cells of a mask; a colour without cover changes nothing.
* `Canvas.beside` joins two canvases with a gap between them, on white where one is shorter.
-/

namespace CanvasScript

/-- A grid of colours. -/
structure Canvas where
  width : Nat
  height : Nat
  pixels : Array Rgba
  deriving DecidableEq, Repr

namespace Canvas

/-- A canvas of one colour. -/
def plain (width height : Nat) (color : Rgba) : Canvas :=
  ⟨width, height, Array.replicate (width * height) color⟩

/-- The colour of a cell. -/
def pixel (canvas : Canvas) (x y : Nat) : Rgba :=
  canvas.pixels.getD (y * canvas.width + x) Rgba.clear

/-- Lays a colour over `count` cells from a place on. -/
def paintCells {color : Rgba} :
    (count place : Nat) → Rgba.Blended color → Array Rgba → Array Rgba × Rgba.Blended color
  | 0, _, blended, pixels => (pixels, blended)
  | count + 1, place, blended, pixels =>
    let (result, blended) := blended.next (pixels.getD place Rgba.clear)
    paintCells count (place + 1) blended (pixels.setIfInBounds place result)

/-- Lays a colour over the cells of a row. -/
def paintRow {color : Rgba} (place : Nat) :
    Row → Rgba.Blended color → Array Rgba → Array Rgba × Rgba.Blended color
  | [], blended, pixels => (pixels, blended)
  | span :: rest, blended, pixels =>
    let (pixels, blended) := paintCells (span.stop - span.start) (place + span.start) blended pixels
    paintRow place rest blended pixels

/-- Lays a colour over the cells of rows, the first of which starts at a place. -/
def paintRows {color : Rgba} (width place : Nat) :
    List Row → Rgba.Blended color → Array Rgba → Array Rgba
  | [], _, pixels => pixels
  | row :: rest, blended, pixels =>
    let (pixels, blended) := paintRow place row blended pixels
    paintRows width (place + width) rest blended pixels

/-- Lays a colour over the cells of a mask. -/
def paint (canvas : Canvas) (mask : Mask) (color : Rgba) : Canvas :=
  if color.alpha = 0 then canvas
  else
    { canvas with
      pixels := paintRows canvas.width 0 mask.rows.toList (.fresh : Rgba.Blended color)
        canvas.pixels }

/-- The canvas in one colour. -/
def fill (canvas : Canvas) (color : Rgba) : Canvas := plain canvas.width canvas.height color

/-- A row of a canvas, in white where the canvas is too short. -/
def rowOrWhite (canvas : Canvas) (y : Nat) : Array Rgba :=
  if y < canvas.height then canvas.pixels.extract (y * canvas.width) ((y + 1) * canvas.width)
  else Array.replicate canvas.width Rgba.white

/-- Two canvases with a white gap between them. -/
def beside (left right : Canvas) (gap : Nat) : Canvas where
  width := left.width + gap + right.width
  height := max left.height right.height
  pixels := (Array.range (max left.height right.height)).flatMap fun y =>
    left.rowOrWhite y ++ Array.replicate gap Rgba.white ++ right.rowOrWhite y

/-- How many cells differ from another canvas. -/
def changed (canvas other : Canvas) : Nat :=
  ((canvas.pixels.zip other.pixels).filter fun (a, b) => a != b).size

/-- The first colour and how often it stands at the start, followed by the runs of the rest. -/
def runsFrom (pixels : List Rgba) : List (Nat × Rgba) :=
  pixels.foldr
    (fun color runs =>
      match runs with
      | (count, first) :: rest =>
        if color = first then (count + 1, first) :: rest else (1, color) :: runs
      | [] => [(1, color)]) []

/-- The colours row by row, as runs of equal ones. -/
def runs (canvas : Canvas) : List (Nat × Rgba) := runsFrom canvas.pixels.toList

end Canvas

end CanvasScript
