import CanvasScript.Playback.Easing
import CanvasScript.Value.Display

/-!
# The playback scheduler

A scheduler moves a value between a minimum and a maximum, either at once or in an animation that
advances with every tick. A listener is told each new value and may refuse it by failing.

Model of `PlaybackScheduler` with its states `Idle` and `Animating`; `present` is `_render`.

* A value is clamped to the range and then put on the grid of steps (`quantize`); both ends of the
  range stay within reach.
* The value of the scheduler changes only when the listener accepts the new one.
* Starting an animation ends the one before, and a tick that fails leaves the scheduler idle.

Out of scope: the log, a listener that acts on the scheduler by which it is told, and the identity
of objects. `quantize` exempts the ends of the range by their values. Where the minimum stands for
no number, every value is brought to it, and with a step size the modelled method gives it back,
since an object is found among the ends by identity first; here it equals nothing, and rounding it
is a fault.
-/

namespace CanvasScript

open Scalar

/-- An animation toward a target. Its time starts with the first tick if no start is given. -/
structure Animation (α : Type) where
  target : α
  origin : α
  startTime : Option α
  duration : α
  easing : Easing
  deriving DecidableEq, Repr

/-- What a scheduler is doing. -/
inductive Activity (α : Type) where
  | idle
  | animating (animation : Animation α)
  deriving DecidableEq, Repr

/-- A value that is moved over a range. -/
structure Scheduler (α : Type) where
  minimum : α
  maximum : α
  /-- How long an animation over a distance of one takes in play. -/
  animationDuration : α
  /-- How long a step takes. -/
  stepDuration : α
  /-- Whether playing backward runs toward the minimum. -/
  reverses : Bool
  /-- The distance between two points of the grid, if there is one. -/
  stepSize : Option α
  value : α
  activity : Activity α
  deriving DecidableEq, Repr

/-- Why a scheduler is not set up. -/
inductive SetupError where
  | emptyRange
  | stepSize
  | arithmetic (fault : ArithmeticFault)
  deriving DecidableEq, Repr

/-- The text that reports the error. -/
def SetupError.message : SetupError → String
  | .emptyRange => "maximum must be >= minimum"
  | .stepSize => "step_size must be > 0"
  | .arithmetic fault => fault.message

/-- Why an operation of a scheduler fails. -/
inductive PlaybackError (ε : Type) where
  /-- The value, which is shown here, names no easing. -/
  | unknownEasing (shown : String)
  | reading (fault : ReadFault)
  | arithmetic (fault : ArithmeticFault)
  /-- The listener failed. -/
  | listener (error : ε)
  deriving DecidableEq, Repr

/-- The text that reports the error. -/
def PlaybackError.message {ε : Type} (text : ε → String) : PlaybackError ε → String
  | .unknownEasing shown => Easing.unknownMessage shown
  | .reading fault => fault.message
  | .arithmetic fault => fault.message
  | .listener error => text error

/-- What is told each new value; it keeps notes of type `σ`. -/
abbrev Listener (ε σ α : Type) := α → ExceptT ε (StateM σ) Unit

/-- A listener that leaves further notes alone. -/
def Listener.beside {ε σ τ α : Type} (listener : Listener ε σ α) : Listener ε (σ × τ) α :=
  fun v (notes, others) =>
    let (result, notes) := (listener v).run notes
    (result, (notes, others))

/-- An operation of a scheduler beside the notes of its listener. -/
abbrev Playing (ε σ α β : Type) := ExceptT (PlaybackError ε) (StateM (Scheduler α × σ)) β

namespace Activity

variable {α : Type}

/-- Whether an animation is running. -/
def isAnimating : Activity α → Bool
  | .idle => false
  | .animating _ => true

end Activity

namespace Scheduler

variable {α : Type} [Scalar α]

/-- The settings with which a scheduler is made, as numbers. -/
structure Setup (α : Type) where
  minimum : Number α
  maximum : Number α
  animationDuration : Number α
  stepDuration : Number α
  reverses : Bool
  stepSize : Option (Number α)

/-- How long an animation takes where nothing is given, in milliseconds. -/
def defaultDuration : α := ofInt 1000

/-- The settings where nothing is given. -/
def Setup.default : Setup α where
  minimum := .real zero
  maximum := .real one
  animationDuration := .real defaultDuration
  stepDuration := .real defaultDuration
  reverses := false
  stepSize := none

/-- Whether a number can be a step size. -/
def isStepSize (n : Number α) : Except ArithmeticFault Bool := do
  return (← n.isFinite) && !(n.le (.int 0))

/-- The scheduler of some settings, idle at its minimum. -/
def ofSetup (setup : Setup α) : Except SetupError (Scheduler α) := do
  if !(setup.minimum.le setup.maximum) && setup.maximum.le setup.minimum then throw .emptyRange
  if let some step := setup.stepSize then
    if !(← (isStepSize step).mapError .arithmetic) then throw .stepSize
  let read (n : Number α) : Except SetupError α := n.toScalar?.mapError .arithmetic
  let minimum ← read setup.minimum
  let maximum ← read setup.maximum
  let animationDuration ← read setup.animationDuration
  let stepDuration ← read setup.stepDuration
  let stepSize ← setup.stepSize.mapM read
  return {
    minimum, maximum, animationDuration, stepDuration, stepSize
    reverses := setup.reverses
    value := minimum
    activity := .idle }

/-- The value brought into the range. -/
def clamp (s : Scheduler α) (v : α) : α := greatest s.minimum (least v s.maximum)

/-- How many decimals a point of the grid has. -/
def gridPlaces : Nat := 9

/-- The value brought into the range and onto the grid of steps. -/
def quantize (s : Scheduler α) (v : α) : Except ArithmeticFault α :=
  let v := s.clamp v
  match s.stepSize with
  | none => .ok v
  | some step =>
    if same v s.minimum || same v s.maximum then .ok v
    else do
      let steps ← round ((v - s.minimum) / step)
      return s.clamp (roundTo gridPlaces (s.minimum + ofInt steps * step))

section

variable {ε σ : Type}

/-- Changes the scheduler alone. -/
def change (f : Scheduler α → Scheduler α) : Playing ε σ α Unit := fun (s, notes) =>
  (.ok (), (f s, notes))

/-- What the scheduler says. -/
def ask {β : Type} (f : Scheduler α → β) : Playing ε σ α β := fun (s, notes) =>
  (.ok (f s), (s, notes))

/-- The scheduler with another activity. -/
def withActivity (activity : Activity α) (s : Scheduler α) : Scheduler α := { s with activity }

/-- Ends the animation. -/
def cancel : Playing ε σ α Unit := change (withActivity .idle)

/-- Reads what was asked for. -/
def read {β : Type} (reading : Except ReadFault β) : Playing ε σ α β :=
  ExceptT.mk (pure (reading.mapError .reading))

/-- The result of arithmetic. -/
def computed {β : Type} (result : Except ArithmeticFault β) : Playing ε σ α β :=
  ExceptT.mk (pure (result.mapError .arithmetic))

/-- Tells the listener a value on the grid and keeps it if it is accepted. -/
def present (listener : Listener ε σ α) (v : α) : Playing ε σ α Unit := fun (s, notes) =>
  match s.quantize v with
  | .error fault => (.error (.arithmetic fault), (s, notes))
  | .ok v =>
    match (listener v).run notes with
    | (.ok (), notes) => (.ok (), ({ s with value := v }, notes))
    | (.error error, notes) => (.error (.listener error), (s, notes))

/-- Moves to a value at once. -/
def setValue (listener : Listener ε σ α) (v : Reading α) : Playing ε σ α Unit := do
  cancel
  let v ← read v
  present listener (← ask (·.clamp v))

/-- The easing that a value names. -/
def easingOf {α : Type} [Written α] (easing : Value α) : Playing ε σ α Easing :=
  match Easing.ofValue? easing with
  | some easing => pure easing
  | none => throw (.unknownEasing easing.shown)

/-- Starts an animation to a target, or moves there at once if it takes no time. -/
def animateWith (listener : Listener ε σ α) (target duration : Reading α) (easing : Easing)
    (now : Option (Reading α)) : Playing ε σ α Unit := do
  let t ← read target
  let target ← ask (·.clamp t)
  let duration ← read duration
  if !isFinite duration || duration ≤ zero || easing = .none then
    setValue listener (.ok target)
  else
    let origin ← ask (·.value)
    let duration :=
      if easing = .constantSpeed then duration * Scalar.abs (target - origin) else duration
    if easing = .constantSpeed && duration ≤ zero then setValue listener (.ok target)
    else
      let startTime ← now.mapM read
      change (withActivity (.animating {
        target, origin, startTime, duration
        easing := if easing = .constantSpeed then .linear else easing }))

/-- Starts an animation to a target after ending the one before. -/
def animate (listener : Listener ε σ α) (target duration : Reading α) (easing : Easing)
    (now : Option (Reading α)) : Playing ε σ α Unit := do
  cancel
  animateWith listener target duration easing now

/-- Starts an animation whose easing is a value that names it. -/
def animateTo {α : Type} [Written α] (listener : Listener ε σ α) (target duration : Reading α)
    (easing : Value α) (now : Option (Reading α)) : Playing ε σ α Unit := do
  cancel
  animateWith listener target duration (← easingOf easing) now

/-- The part of an animation's time that has passed. -/
def elapsedPart (animation : Animation α) (start now : α) : α :=
  least (greatest zero (now - start) / animation.duration) one

/-- The value of an animation when a part of its time has passed. -/
def valueAt (animation : Animation α) (t : α) : α :=
  if one ≤ t then animation.target
  else animation.origin + (animation.target - animation.origin) * animation.easing.apply t

/-- Shows a value; where that fails the scheduler becomes idle. -/
def presentOrRest (listener : Listener ε σ α) (v : α) : Playing ε σ α Unit :=
  tryCatch (present listener v) fun error => do
    cancel
    throw error

/-- Advances the animation to a time. The result tells whether it goes on. -/
def tick (listener : Listener ε σ α) (now : Reading α) : Playing ε σ α Bool := do
  match ← ask (·.activity) with
  | .idle => return false
  | .animating animation =>
    let now ← read now
    let start := animation.startTime.getD now
    let part := elapsedPart animation start now
    if one ≤ part then change (withActivity .idle)
    else change (withActivity (.animating { animation with startTime := some start }))
    presentOrRest listener (valueAt animation part)
    ask (·.activity.isAnimating)

/-- Plays to the end at constant speed, from the other end when it is there already. -/
def play (listener : Listener ε σ α) (backward : Bool) (now : Option (Reading α)) :
    Playing ε σ α Unit := do
  let s ← ask id
  if backward && s.reverses then
    if s.value ≤ s.minimum then setValue listener (.ok s.maximum)
    animate listener (.ok s.minimum) (.ok s.animationDuration) .constantSpeed now
  else
    if s.maximum ≤ s.value then setValue listener (.ok s.minimum)
    animate listener (.ok s.maximum) (.ok s.animationDuration) .constantSpeed now

/-- How close to an integer a value counts as one. -/
def integerTolerance : α := ofRat (1 / 1000)

/-- The integer after a value. -/
def nextInteger (v : α) : Except ArithmeticFault α := do
  let n ← round v
  if Scalar.abs (v - ofInt n) < integerTolerance then return ofInt n + one
  else return ofInt (← ceil v)

/-- The integer before a value. -/
def previousInteger (v : α) : Except ArithmeticFault α := do
  let n ← round v
  if Scalar.abs (v - ofInt n) < integerTolerance then return ofInt n - one
  else return ofInt (← floor v)

/-- Moves on to the next integer. -/
def stepForward (listener : Listener ε σ α) (now : Option (Reading α)) : Playing ε σ α Unit := do
  let s ← ask id
  let target ← computed (nextInteger s.value)
  animate listener (.ok (least s.maximum target)) (.ok s.stepDuration) .linear now

/-- Moves back to the integer before. -/
def stepBackward (listener : Listener ε σ α) (now : Option (Reading α)) : Playing ε σ α Unit := do
  let s ← ask id
  let target ← computed (previousInteger s.value)
  animate listener (.ok (greatest s.minimum target)) (.ok s.stepDuration) .linear now

/-- Moves to the minimum at once. -/
def first (listener : Listener ε σ α) : Playing ε σ α Unit := do
  setValue listener (.ok (← ask (·.minimum)))

/-- Moves to the maximum at once. -/
def last (listener : Listener ε σ α) : Playing ε σ α Unit := do
  setValue listener (.ok (← ask (·.maximum)))

end

end Scheduler

end CanvasScript
