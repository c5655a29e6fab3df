import CanvasScript.Geometry.Affine
import CanvasScript.Raster.Mask

/-!
# Polygons

A closed polygon selects the cells whose centres lie inside it by the even-odd rule: a centre is
inside when an odd number of edges cross its row to the right of it.

Model of `polygon_mask`. Instead of asking of each cell which edges cross its row to the right of
it, `row` sorts the crossings of the row once. A polygon with a point that is not finite selects
nothing.

* `edges` pairs each point with the one before it, the first with the last.
* `crossings y` are the places where edges cross the row of centres at `y`.
* `mask` looks at the bounding box of the polygon only. In each row a crossing selects the cells to
  its left, and cells that are selected an odd number of times make up the mask.

Out of scope: the quotients of edges along a row, which are divisions by zero and count for nothing.
-/

namespace CanvasScript.Polygon

open Scalar

variable {α : Type} [Scalar α]

/-- The centre of a cell along one axis. -/
def center (n : Nat) : α := ofInt n + half

/-- Each point with the one before it. -/
def edges (points : List (Point α)) : List (Point α × Point α) :=
  match points.getLast? with
  | some last => points.zip (last :: points)
  | none => []

/-- Whether an edge crosses the row at `y`. -/
def crosses (y : α) (edge : Point α × Point α) : Bool :=
  decide (y < edge.1.y) != decide (y < edge.2.y)

/-- Where an edge that crosses the row at `y` does so. -/
def crossing (y : α) (edge : Point α × Point α) : α :=
  let (p, q) := edge
  (q.x - p.x) * (y - p.y) / (q.y - p.y) + p.x

/-- The places where edges cross the row at `y`. -/
def crossings (y : α) (edges : List (Point α × Point α)) : List α :=
  (edges.filter (crosses y)).map (crossing y)

/-- The first cell from `low` up to `high` whose centre is not left of `x`. -/
def firstRight (x : α) (low high : Nat) : Nat :=
  if h : low < high then
    let middle := (low + high) / 2
    if center middle < x then firstRight x (middle + 1) high else firstRight x low middle
  else low
termination_by high - low
decreasing_by all_goals omega

/-- The cells between descending bounds, in turn selected and not, down to `start`. -/
def between (start : Nat) : (bounds : List Nat) → Row
  | [] => []
  | [last] => Row.select start last []
  | stop :: next :: rest => Row.select next stop (between start rest)

/-- The selected cells of a row between two columns, from the places where edges cross it. -/
def row (left right : Nat) (places : List α) : Row :=
  between left ((places.map fun x => firstRight x left right).mergeSort fun a b => decide (b ≤ a))

/-- Whether both coordinates of a point are finite. -/
def isFinitePoint (p : Point α) : Bool := isFinite p.x && isFinite p.y

/-- The first and the last cell that a range of coordinates may touch, the last not included. -/
def extent (size : Nat) (first : α) (rest : List α) : Except ArithmeticFault (Nat × Nat) := do
  let low ← floor (rest.foldl least first)
  let high ← ceil (rest.foldl greatest first)
  return (low.toNat, min size (high + 1).toNat)

/-- The cells of a canvas whose centres lie inside a polygon. -/
def mask (width height : Nat) (points : List (Point α)) : Except ArithmeticFault Mask :=
  match points with
  | first :: rest =>
    if points.length < 3 || !points.all isFinitePoint then .ok (Mask.empty height)
    else do
      let (left, right) ← extent width first.x (rest.map (·.x))
      let (top, bottom) ← extent height first.y (rest.map (·.y))
      if right ≤ left || bottom ≤ top then return Mask.empty height
      let edges := edges points
      return ⟨(Array.range height).map fun y =>
        if top ≤ y && y < bottom then row left right (crossings (center y) edges) else []⟩
  | [] => .ok (Mask.empty height)

end CanvasScript.Polygon
