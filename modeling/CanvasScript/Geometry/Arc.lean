import CanvasScript.Geometry.Affine

/-!
# Arcs

An arc runs from one angle to another on a circle, clockwise on the canvas unless it is said to run
counterclockwise. Angles are in degrees and sweeps in radians.

Model of `arc_sweep` and `arc_points`. `fraction n` are `n` evenly spaced numbers from `0` to `1`,
the last of which is set and not computed.

* `sweep` is the signed angle that an arc covers: at most a full turn in its direction.
* `points` samples an arc evenly, both ends included, in steps of at most a 96th of a turn.

Out of scope: the error at an infinite angle. Decoded angles are finite.
-/

namespace CanvasScript.Arc

open Scalar

variable {α : Type} [Scalar α]

/-- The angle that an arc covers, positive when clockwise and negative when counterclockwise. -/
def sweep (start finish : α) (counterclockwise : Bool) : α :=
  let start := radians start
  let finish := radians finish
  if counterclockwise then
    if turn ≤ start - finish then -turn else -(modulo (start - finish) turn)
  else
    if turn ≤ finish - start then turn else modulo (finish - start) turn

/-- How many points sample a full turn, the last not counted. -/
def segmentsPerTurn : Int := 96

/-- How many points sample an arc of a sweep. -/
def count (sweep : α) : Except ArithmeticFault Nat := do
  let segments ← ceil (Scalar.abs sweep / turn * ofInt segmentsPerTurn)
  return (max 2 (segments + 1)).toNat

/-- The part of the way to point `i` of `n`; the last one is at the very end. -/
def fraction (n i : Nat) : α :=
  if i + 1 = n then one else ofInt i * (one / ofInt ((n : Int) - 1))

/-- The point of a circle at an angle in radians. -/
def pointAt (x y radius angle : α) : Point α :=
  ⟨x + radius * cos angle, y + radius * sin angle⟩

/-- The points that sample an arc; none when it covers no angle or has no radius. -/
def points (x y radius start finish : α) (counterclockwise : Bool) :
    Except ArithmeticFault (List (Point α)) :=
  let sweep := sweep start finish counterclockwise
  if same sweep zero || decide (radius ≤ zero) then .ok []
  else do
    let n ← count sweep
    return (List.range n).map fun i =>
      pointAt x y radius (radians start + sweep * fraction n i)

end CanvasScript.Arc

