import CanvasScript.Rounding

/-!
# Shortest decimals

A binary number stands for an interval: the reals that round to it. Its shortest decimal has the
fewest digits among the decimals of that interval, and of those it is the nearest to the number.

The decimals with a given last place form a grid. Coarse grids come first; on each one only the two
neighbours of the number need a look, since any grid point of the interval has one of them between
itself and the number.

It is the text of a double wherever one is written in full.

Out of scope: that no decimal with fewer digits reads back. The search takes the first grid on which
one does.
-/

namespace CanvasScript.Decimal

/-- The reals that round to one binary number. -/
structure Cell where
  /-- The lower end. -/
  low : Rat
  /-- The number itself. -/
  middle : Rat
  /-- The upper end. -/
  high : Rat
  /-- Whether the ends round to the number as well. -/
  closed : Bool

namespace Cell

/-- Whether a real rounds to the number. -/
def holds (cell : Cell) (x : Rat) : Bool :=
  if cell.closed then decide (cell.low ≤ x) && decide (x ≤ cell.high)
  else decide (cell.low < x) && decide (x < cell.high)

/-- The multiple of `unit` in the cell that is nearest to its number, as a count of units. -/
def hit? (cell : Cell) (unit : Rat) : Option Nat :=
  let below := (cell.middle / unit).floor.toNat
  let low := (below : Rat) * unit
  let high := ((below + 1 : Nat) : Rat) * unit
  match cell.holds low, cell.holds high with
  | true, false => some below
  | false, true => some (below + 1)
  | false, false => none
  | true, true =>
    let toLow := cell.middle - low
    let toHigh := high - cell.middle
    if toLow < toHigh then some below
    else if toHigh < toLow then some (below + 1)
    else if below % 2 = 0 then some below else some (below + 1)

/-- The first grid with a point in the cell, from the one of `10 ^ exponent` on to finer ones. -/
def search (cell : Cell) : (fuel : Nat) → (exponent : Int) → Nat × Int
  | 0, exponent => ((cell.middle / (10 : Rat) ^ exponent).floor.toNat, exponent)
  | fuel + 1, exponent =>
    match cell.hit? ((10 : Rat) ^ exponent) with
    | some n => (n, exponent)
    | none => search cell fuel (exponent - 1)

/-- The shortest decimal of a positive number, `digits · 10 ^ exponent`. The start is a grid above
the number, and seventeen digits always suffice for a double. -/
def shortest (cell : Cell) : Nat × Int :=
  search cell 25 (Rounding.log2 cell.middle * 30103 / 100000 + 1)

end Cell

end CanvasScript.Decimal
