import CanvasScript.Geometry.Affine
import CanvasScript.Raster.Mask

/-!
# Lines

Model of `stroke_mask`, `_stamp_segment` and `_clip_segment`. The loop of `_stamp_segment` has no
bound; `Cell.line` makes as many rounds as it takes (`Cell.goesStraight`). A path with an end that
is not finite selects nothing.

* `Segment.clip?` cuts a segment to a rectangle, or tells that it misses it.
* `Cell.line` is the straight walk between two cells, diagonal steps included: it has one step for
  every unit of the longer axis, and both ends belong to it. `Bearing.advance` is one such step.
* `Stroke.mask` selects the squares about the cells of every segment of a path.
-/

namespace CanvasScript

open Scalar

variable {α : Type} [Scalar α]

/-- A segment between two points. -/
structure Segment (α : Type) where
  start : Point α
  finish : Point α
  deriving DecidableEq, Repr

namespace Segment

/-- The part of a segment that one side of a rectangle leaves of the part from `t₀` to `t₁`: the
segment moves by `p` toward the side, which is `q` away from its start. -/
def clipSide (p q : α) (part : α × α) : Option (α × α) :=
  let (t₀, t₁) := part
  if same p zero then if q < zero then none else some part
  else
    let r := q / p
    let (t₀, t₁) := if p < zero then (greatest t₀ r, t₁) else (t₀, least t₁ r)
    if t₁ < t₀ then none else some (t₀, t₁)

/-- The part of a segment inside the rectangle from `low` to `high`. -/
def clip? (segment : Segment α) (low high : Point α) : Option (Segment α) := do
  let ⟨p, q⟩ := segment
  let dx := q.x - p.x
  let dy := q.y - p.y
  let part ← clipSide (-dx) (p.x - low.x) (zero, one)
  let part ← clipSide dx (high.x - p.x) part
  let part ← clipSide (-dy) (p.y - low.y) part
  let (t₀, t₁) ← clipSide dy (high.y - p.y) part
  return ⟨⟨p.x + t₀ * dx, p.y + t₀ * dy⟩, ⟨p.x + t₁ * dx, p.y + t₁ * dy⟩⟩

end Segment

/-- A cell of the plane. -/
@[ext]
structure Cell where
  x : Int
  y : Int
  deriving DecidableEq, Repr

/-- Which way a walk goes: the distance along the first axis, the negated one along the second, and
the unit step along each. -/
structure Bearing where
  dx : Int
  dy : Int
  stepX : Int
  stepY : Int
  deriving DecidableEq, Repr

namespace Bearing

/-- The unit step from one coordinate toward another. -/
def unitStep (u v : Int) : Int := if u < v then 1 else -1

/-- The way from one cell to another. -/
def between (start finish : Cell) : Bearing where
  dx := (finish.x - start.x).natAbs
  dy := -((finish.y - start.y).natAbs : Int)
  stepX := unitStep start.x finish.x
  stepY := unitStep start.y finish.y

/-- The next cell and the error there, which balances the steps along the two axes. -/
def advance (bearing : Bearing) : Cell × Int → Cell × Int
  | (cell, error) =>
    let alongX := decide (bearing.dy ≤ 2 * error)
    let alongY := decide (2 * error ≤ bearing.dx)
    (⟨if alongX then cell.x + bearing.stepX else cell.x,
      if alongY then cell.y + bearing.stepY else cell.y⟩,
      error + (if alongX then bearing.dy else 0) + (if alongY then bearing.dx else 0))

end Bearing

namespace Cell

/-- The cells from that of a state to the target. -/
def walk (target : Cell) (bearing : Bearing) : (fuel : Nat) → Cell × Int → List Cell
  | 0, state => [state.1]
  | fuel + 1, state =>
    if state.1 = target then [state.1]
    else state.1 :: walk target bearing fuel (bearing.advance state)

/-- How far two cells are apart along the longer axis. -/
def distance (start finish : Cell) : Nat :=
  max (finish.x - start.x).natAbs (finish.y - start.y).natAbs

/-- The straight walk between two cells. -/
def line (start finish : Cell) : List Cell :=
  let bearing := Bearing.between start finish
  walk finish bearing (distance start finish) (start, bearing.dx + bearing.dy)

/-- The cell of a point. -/
def ofPoint (p : Point α) : Except ArithmeticFault Cell :=
  return ⟨← floor p.x, ← floor p.y⟩

end Cell

namespace Stroke

/-- How far a line of a width reaches to each side of its cells. -/
def radius (lineWidth : Int) : Nat := (lineWidth / 2).toNat

/-- The mask with a segment selected. Only the part near the canvas is walked. -/
def segment (width height : Nat) (lineWidth : Int) (s : Segment α) (mask : Mask) :
    Except ArithmeticFault Mask :=
  let radius := radius lineWidth
  let low : α := -ofInt radius - one
  let high : Point α := ⟨ofInt ((width + radius : Nat) : Int) + one,
    ofInt ((height + radius : Nat) : Int) + one⟩
  match s.clip? ⟨low, low⟩ high with
  | none => .ok mask
  | some part => do
    let start ← Cell.ofPoint part.start
    let finish ← Cell.ofPoint part.finish
    return (Cell.line start finish).foldl
      (fun mask cell => mask.stamp width height radius cell.x cell.y) mask

/-- The segments of a path, with one back to its start if the path is closed. -/
def segments (points : List (Point α)) (closed : Bool) : List (Segment α) :=
  let path := if closed then points ++ points.take 1 else points
  (path.zip path.tail).map fun (p, q) => ⟨p, q⟩

/-- The cells of a canvas that a path with lines of a width selects. -/
def mask (width height : Nat) (points : List (Point α)) (lineWidth : Int) (closed : Bool) :
    Except ArithmeticFault Mask :=
  if points.length < 2 || !points.all (fun p => isFinite p.x && isFinite p.y) then
    .ok (Mask.empty height)
  else
    (segments points closed).foldlM (fun mask s => segment width height lineWidth s mask)
      (Mask.empty height)

end Stroke

end CanvasScript
