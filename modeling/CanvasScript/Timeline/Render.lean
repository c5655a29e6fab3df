import CanvasScript.Surface
import CanvasScript.Timeline.Trace

/-!
# Rendering

A timeline is drawn at a position, with every step that has begun.

Model of `render`, `_render_nested`, `_render_flat`, `_draw_in_frame` and `draw_step`; without a
surface `render` is `Timeline.trace`. A frame that is left in any case is `Drawing.framed`.

* Forward, each step stands in a frame of its own: the one that it has reached at its amount.
* Backward, the steps that are left share one frame, which each of them moves by its part.
* A marker may be drawn in the frame in which the drawing ends.

Out of scope: a marker that does more than draw on the surface.
-/

namespace CanvasScript

open Scalar

/-- Why a timeline is not rendered. -/
inductive RenderError where
  | direction (error : DirectionError)
  | position (fault : ReadFault)
  | drawing (fault : DrawFault)
  deriving DecidableEq, Repr

/-- The text that reports the error. -/
def RenderError.message : RenderError → String
  | .direction error => error.message
  | .position fault => fault.message
  | .drawing fault => fault.message

/-- A rendering on surfaces of a type. -/
abbrev Rendering (σ β : Type) := ExceptT RenderError (StateM σ) β

/-- A drawing as a rendering. -/
def Drawing.rendering {σ β : Type} (drawing : Drawing σ β) : Rendering σ β :=
  ExceptT.adapt RenderError.drawing drawing

section

variable {α : Type} [Scalar α]

namespace Step

/-- How much of a step is drawn when going forward. -/
def forwardAmount (step : Step α) (position : α) : α :=
  if position < ofInt step.index then zero else least one (position - ofInt step.index)

/-- How much of a step is drawn when going backward. -/
def backwardAmount (step : Step α) (position : α) : α :=
  let finish := ofInt (step.index + 1)
  if finish < position then zero else least one (finish - position)

/-- The width of lines where none is given. -/
def lineWidth : Number α := .real one

section

variable {σ : Type} [Surface α σ]

/-- Draws the figure of a step, faded to `t`. -/
def draw (step : Step α) (t : α) : Drawing σ Unit :=
  match step.command with
  | .draw paint figure _ =>
    Surface.paint (.figure paint figure) lineWidth ((step.color.get paint).fade t)
  | _ => pure ()

/-- Draws in the frame that a step has reached at `t`. -/
def within (step : Step α) (t : α) (drawing : Drawing σ Unit) : Drawing σ Unit :=
  Drawing.framed do
    Drawing.enter (step.progress t).matrix
    drawing

end

end Step

namespace Timeline

variable {σ : Type} [Surface α σ]

/-- The steps that have begun when going forward, with their amounts. -/
def begun (steps : List (Step α)) (position : α) : List (Step α × α) :=
  (steps.map fun step => (step, step.forwardAmount position)).filter fun (_, t) => zero < t

/-- The step in whose frame a forward drawing ends, with its amount: the last that has begun, or the
first one if none has. -/
def lastBegun (steps : List (Step α)) (position : α) : Option (Step α × α) :=
  match (begun steps position).getLast? with
  | some last => some last
  | none => steps.head?.map (·, zero)

/-- Draws forward up to a position, each step in a frame of its own. -/
def drawForward (steps : List (Step α)) (position : α) (marker : Option (Drawing σ Unit)) :
    Drawing σ Unit := do
  (begun steps position).forM fun (step, t) => step.within t (step.draw t)
  match marker, lastBegun steps position with
  | some mark, some (step, t) => step.within t mark
  | _, _ => pure ()

/-- Draws a step backward if it is left to do, moving the common frame. -/
def drawLeft (position : α) (step : Step α) : Drawing σ Unit := do
  let t := step.backwardAmount position
  if zero < t then
    Drawing.enter (step.partway t)
    step.draw t

/-- Draws backward down to a position, all steps in one frame. -/
def drawBackward (steps : List (Step α)) (position : α) (marker : Option (Drawing σ Unit)) :
    Drawing σ Unit :=
  Drawing.framed do
    steps.forM (drawLeft position)
    marker.getD (pure ())

/-- The trace of the timeline at a position that is asked for. -/
def trace (timeline : Timeline α) (position : Reading α) (direction : Direction)
    (reverses : Bool) : Except RenderError (Trace α) := do
  let direction ← (timeline.allowed direction).mapError .direction
  if timeline.steps.isEmpty then return Trace.empty direction
  let p ← position.mapError .position
  return Trace.ofSteps timeline.steps
    (effectivePosition p timeline.length (reverses && direction = .backward)) direction

/-- Draws the timeline at the position of a trace. -/
def draw (timeline : Timeline α) (trace : Trace α) (marker : Option (Drawing σ Unit)) :
    Drawing σ Unit :=
  if timeline.steps.isEmpty then pure ()
  else
    match trace.direction with
    | .forward => drawForward timeline.steps trace.position marker
    | .backward => drawBackward timeline.steps trace.position marker

/-- Draws the timeline at a position that is asked for; the result is its trace. -/
def render (timeline : Timeline α) (position : Reading α) (direction : Direction)
    (reverses : Bool) (marker : Option (Drawing σ Unit)) : Rendering σ (Trace α) := do
  let trace ← ExceptT.mk (pure (timeline.trace position direction reverses))
  (timeline.draw trace marker).rendering
  return trace

end Timeline

end

end CanvasScript
