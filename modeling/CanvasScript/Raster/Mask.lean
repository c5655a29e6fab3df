import CanvasScript.Raster.Span

/-!
# Masks

A mask selects cells of a canvas, row by row.

It stands for the array of flags of `polygon_mask` and `stroke_mask`.
-/

namespace CanvasScript

/-- Selected cells, by rows. -/
structure Mask where
  rows : Array Row
  deriving DecidableEq, Repr

namespace Mask

/-- A mask of a height that selects nothing. -/
def empty (height : Nat) : Mask := ⟨Array.replicate height []⟩

/-- Whether a cell is selected. -/
def contains (mask : Mask) (x y : Nat) : Bool := Row.contains (mask.rows.getD y []) x

/-- The mask with cells of a row selected. -/
def selectIn (y start stop : Nat) (mask : Mask) : Mask :=
  ⟨mask.rows.modify y (Row.select start stop)⟩

/-- The mask with the cells of a block selected: columns `left` up to `right` of `count` rows from
`top` on. Rows beyond the canvas do not count. -/
def selectBlock (left right top : Nat) : (count : Nat) → Mask → Mask
  | 0, mask => mask
  | count + 1, mask => selectBlock left right (top + 1) count (mask.selectIn top left right)

/-- The mask with the square about a cell selected, `radius` cells to each side, as far as it lies
on a canvas. -/
def stamp (width height radius : Nat) (x y : Int) (mask : Mask) : Mask :=
  let left := (x - radius).toNat
  let right := min width (x + radius + 1).toNat
  let top := (y - radius).toNat
  let bottom := min height (y + radius + 1).toNat
  selectBlock left right top (bottom - top) mask

end Mask

end CanvasScript
