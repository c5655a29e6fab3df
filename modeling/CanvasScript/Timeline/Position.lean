import CanvasScript.Timeline

/-!
# Positions and directions

A timeline of `n` steps is played over the positions from `0` to `n`, forward or backward.

Model of `clamp_param`, `effective_param`, `check_direction` and `InvalidModeError`. A position that
stands for no number is brought to `0`, and a direction is any value that equals `1` or `-1`.

* `clampPosition` brings a position onto the timeline.
* `effectivePosition` also counts it from the end where backward playback runs from right to left.
* `Timeline.checkDirection` refuses to go backward over saves and restores.
-/

namespace CanvasScript

open Scalar

/-- The direction of playback. -/
inductive Direction where
  | forward
  | backward
  deriving DecidableEq, Repr

/-- The direction that a value stands for: `1` is forward and `-1` is backward. -/
def Direction.ofValue? {α : Type} [Scalar α] (v : Value α) : Option Direction :=
  if v.equalsInt 1 then some .forward
  else if v.equalsInt (-1) then some .backward
  else none

/-- Why a direction is refused. -/
inductive DirectionError where
  /-- The value, which is shown here, is no direction. -/
  | unknown (shown : String)
  /-- The program saves or restores, so it cannot be played backward. -/
  | backwardUnavailable
  deriving DecidableEq, Repr

/-- The text that reports the error. -/
def DirectionError.message : DirectionError → String
  | .unknown shown => "direction must be 1 or -1, got " ++ shown
  | .backwardUnavailable =>
    "backward playback is not available for programs containing save/restore"

section

variable {α : Type} [Scalar α]

/-- The position brought onto a timeline of `length` steps. -/
def clampPosition (position : α) (length : Nat) : α :=
  greatest zero (least position (ofInt length))

/-- The position that is shown for one that is asked for; reversed positions count from the end. -/
def effectivePosition (position : α) (length : Nat) (reversed : Bool) : α :=
  let p := clampPosition position length
  if reversed then ofInt length - p else p

/-- The direction, unless the timeline cannot be played in it. -/
def Timeline.allowed (timeline : Timeline α) (direction : Direction) :
    Except DirectionError Direction :=
  if direction = .backward ∧ timeline.hasStack then .error .backwardUnavailable else .ok direction

end

/-- The direction that a value stands for, unless the timeline cannot be played in it. -/
def Timeline.checkDirection {α : Type} [Written α] (timeline : Timeline α) (v : Value α) :
    Except DirectionError Direction :=
  match Direction.ofValue? v with
  | some direction => timeline.allowed direction
  | none => .error (.unknown v.shown)

end CanvasScript
