import CanvasScript.Value

/-!
# Easings

An easing turns the part of the time that has passed into the part of the way that is done. All
easings but the cubic one are even; the cubic one starts and ends slowly.

Model of `Easing` and `ease`.

Out of scope of `apply`: the overflow of the third power, for which `applyChecked` looks. A
scheduler brings the part of its time into `[0, 1]` first, where there is none.
-/

namespace CanvasScript

open Scalar

/-- How the way of an animation is spread over its time. -/
inductive Easing where
  | linear
  | cubicInOut
  /-- The time grows with the way, so that every animation has the same speed. -/
  | constantSpeed
  /-- The way is done at once. -/
  | none
  deriving DecidableEq, Repr

namespace Easing

/-- All easings. -/
def all : List Easing := [.linear, .cubicInOut, .constantSpeed, .none]

/-- The name of an easing. -/
def name : Easing → String
  | .linear => "linear"
  | .cubicInOut => "cubic-in-out"
  | .constantSpeed => "constant-speed"
  | .none => "none"

/-- The easing that a value names. -/
def ofValue? {α : Type} : Value α → Option Easing
  | .text name => all.find? (·.name == name)
  | _ => Option.none

/-- The text that reports a value, which is shown here, that names no easing. -/
def unknownMessage (shown : String) : String := shown ++ " is not a valid Easing"

variable {α : Type} [Scalar α]

/-- The cubic curve: `4 t ^ 3` up to the middle, and from there the same reflected. -/
def cubic (t : α) : α :=
  if t < half then ofInt 4 * t * t * t
  else one - cube (-two * t + two) / two

/-- The part of the way that is done when a part of the time has passed. -/
def apply : Easing → α → α
  | .cubicInOut, t => cubic t
  | _, t => t

/-- The part of the way at any time, refused where a power of it is out of bounds. -/
def applyChecked (easing : Easing) (t : α) : Except ArithmeticFault α :=
  let base := -two * t + two
  if easing = .cubicInOut && half ≤ t && isFinite base && !isFinite (cube base) then
    .error .unboundedPower
  else .ok (easing.apply t)

end Easing

end CanvasScript
