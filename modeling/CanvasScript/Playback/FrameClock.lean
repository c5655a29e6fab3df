import CanvasScript.Number

/-!
# The frame clock

A frame clock counts frames at a rate and tells which of them are presented, which may happen at a
lower rate. Times are in milliseconds.

Model of `FrameRateController`. The times of `frame_times` are `timeOf`, and `should_present`, with
its loop over due times, is `present`.

* `frameTime start n` is the time of frame `n`.
* `present now` tells whether a frame at `now` is presented: the first one is, and after that every
  first one at or after the next due time. Due times stay on the grid that starts with the first
  frame.

Out of scope: times so late that a period does not move the due time. The loop would not end; here
the due time stays (`advance`). Otherwise `stepBound` is a count of rounds that is enough.
-/

namespace CanvasScript

open Scalar

/-- A clock of frames. -/
structure FrameClock (α : Type) where
  targetRate : Number α
  presentRate : Option (Number α)
  nextDue : Option α
  deriving DecidableEq, Repr

/-- Why a frame clock is not set up. -/
inductive ClockError where
  | targetRate
  | presentRate
  deriving DecidableEq, Repr

/-- The text that reports the error. -/
def ClockError.message : ClockError → String
  | .targetRate => "target_fps must be > 0"
  | .presentRate => "present_fps must be > 0 when provided"

namespace FrameClock

variable {α : Type} [Scalar α]

/-- The rate of frames where none is given, in frames per second. -/
def defaultRate : Number α := .int 60

/-- A clock that has not presented yet. A rate of presentation above that of frames counts as it. -/
def ofRates (target : Number α) (present : Option (Number α)) : Except ClockError (FrameClock α) :=
  if target.le (.int 0) then .error .targetRate
  else
    match present with
    | none => .ok ⟨target, none, none⟩
    | some rate =>
      if rate.le (.int 0) then .error .presentRate
      else if target.toScalar < rate.toScalar then .ok ⟨target, some target, none⟩
      else .ok ⟨target, some rate, none⟩

/-- The time between two events of a rate. -/
def period (rate : Number α) : α := ofInt 1000 / rate.toScalar

/-- The time between two frames. -/
def frameTime (clock : FrameClock α) : α := period clock.targetRate

/-- The time between two frames that are presented. -/
def presentTime (clock : FrameClock α) : α := period (clock.presentRate.getD clock.targetRate)

/-- The time of a frame. -/
def timeOf (clock : FrameClock α) (start : α) (frame : Nat) : α :=
  start + ofInt frame * clock.frameTime

/-- The first due time after `now`, from a due time on, in steps of a period that move it. -/
def advance (period now : α) : (fuel : Nat) → (due : α) → α
  | 0, due => due
  | fuel + 1, due =>
    if due ≤ now ∧ due < due + period then advance period now fuel (due + period) else due

/-- A bound on the steps from a due time to one after `now`; rounded steps are at least half as long
as a period when they move the due time at all. -/
def stepBound (period now due : α) : Nat :=
  match ceil ((now - due) / period) with
  | .ok n => 2 * n.toNat + 2
  | .error _ => 0

/-- Whether a frame at `now` is presented, and the clock afterwards. -/
def present (clock : FrameClock α) (now : α) : Bool × FrameClock α :=
  let due := clock.nextDue.getD now
  if now < due then (false, { clock with nextDue := some due })
  else
    let period := clock.presentTime
    (true, { clock with nextDue := some (advance period now (stepBound period now due) due) })

end FrameClock

end CanvasScript
