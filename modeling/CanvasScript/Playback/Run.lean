import CanvasScript.Playback.FrameClock
import CanvasScript.Playback.Scheduler

/-!
# Headless playback

A scheduler is ticked frame by frame on a frame clock until it is idle, or until a count of frames
is used up; in that case its animation is ended. The frames that the clock presents are shown to a
presenter, and so is the last one.

Model of `run_playback`; the presenter is `on_present`.

Out of scope: the log, and a presenter that fails or that acts on the scheduler or on the clock.
-/

namespace CanvasScript

/-- What is shown the frames: their number, time and value. -/
abbrev Presenter (σ α : Type) := Nat → α → α → σ → σ

namespace Playback

variable {α ε σ : Type} [Scalar α]

/-- How many frames a playback has at most where nothing is given. -/
def defaultFrames : Int := 10000

/-- Why a playback does not start. -/
inductive StartError where
  /-- There is not a frame to play. -/
  | noFrames
  /-- A rate of the clock is no scalar. -/
  | arithmetic (fault : ArithmeticFault)
  deriving DecidableEq, Repr

/-- The text that reports the error. -/
def StartError.message : StartError → String
  | .noFrames => "max_frames must be > 0"
  | .arithmetic fault => fault.message

/-- How many frames are played at most on a clock, where a count is asked for. -/
def frameLimit (clock : FrameClock α) (frames : Int) : Except StartError Nat := do
  if frames ≤ 0 then throw .noFrames
  let _ ← clock.targetRate.toScalar?.mapError .arithmetic
  return frames.toNat

/-- Shows a frame to a presenter. -/
def showFrame (presenter : Presenter σ α) (number : Nat) (now : α) : Playing ε σ α Unit :=
  fun (s, notes) => (.ok (), (s, presenter number now s.value notes))

/-- Plays at most `left` frames more. The result is the count of all ticks. -/
def playFrom (listener : Listener ε σ α) (presenter : Option (Presenter σ α)) (start : α) :
    (left ticks presented : Nat) → FrameClock α → Playing ε σ α Nat
  | 0, ticks, _, _ => do
    Scheduler.cancel
    return ticks
  | left + 1, ticks, presented, clock => do
    let now := clock.timeOf start ticks
    let more ← Scheduler.tick listener (.ok now)
    match presenter with
    | none =>
      if more then playFrom listener presenter start left (ticks + 1) presented clock
      else return ticks + 1
    | some shown =>
      let (isDue, clock) := clock.present now
      let isShown := isDue || !more
      if isShown then showFrame shown presented now
      if more then
        playFrom listener presenter start left (ticks + 1)
          (if isShown then presented + 1 else presented) clock
      else return ticks + 1

/-- Plays at most a count of frames, from a start time on. The result is the count of ticks. -/
def run (listener : Listener ε σ α) (presenter : Option (Presenter σ α)) (clock : FrameClock α)
    (start : α) (frames : Nat) : Playing ε σ α Nat :=
  playFrom listener presenter start frames 0 0 clock

end Playback

end CanvasScript
