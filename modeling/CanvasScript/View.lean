import CanvasScript.FrameMarker
import CanvasScript.Playback.Scheduler
import CanvasScript.Settings
import CanvasScript.Timeline.Render

/-!
# Views

A view shows a timeline on a surface: it moves the origin to the middle of the canvas, scales the
drawing, marks the frames, and renders the timeline at a position. A view of the final result always
goes forward, in the colours of its direction.

Model of `TimelineView`: `picture` is what `draw` puts on the surface, with the base frame of
`base_transform`, and `scheduler` is `make_scheduler`.

* `View.draw` starts from a clean surface each time, so nothing is left of earlier drawings.
* `View.scheduler` is a scheduler over the positions of the timeline; `View.listener` draws each
  one.

Out of scope: settings that were not checked, and a surface that something else draws on as well.
-/

namespace CanvasScript

open Scalar

/-- A timeline that is shown on a surface. -/
structure View (α σ : Type) where
  timeline : Timeline α
  settings : Settings α
  showsFinal : Bool
  direction : Direction
  lastTrace : Trace α
  surface : σ
  deriving Repr

namespace Settings

variable {α : Type} [Scalar α]

/-- The frame with its origin in the middle of the canvas. -/
def baseTransform (s : Settings α) : Affine α :=
  let middle : α := ofInt s.canvasSize / two
  Affine.identity * Affine.shift middle middle * Affine.scaling s.canvasScale s.canvasScale

/-- That frame, refused where the canvas is larger than any scalar. -/
def baseTransform? (s : Settings α) : Except ArithmeticFault (Affine α) :=
  (ofInt? (α := α) s.canvasSize).map fun _ => s.baseTransform

/-- The colour of the marker at the origin. -/
def startColor (s : Settings α) : Direction → String
  | .forward => s.forwardStartColor
  | .backward => s.backwardStartColor

/-- The colour of the marker at the end of a drawing. -/
def currentColor (s : Settings α) : Direction → String
  | .forward => s.forwardCurrentColor
  | .backward => s.backwardCurrentColor

end Settings

namespace View

variable {α σ : Type} [Scalar α]

/-- A view of a timeline on a surface, unless it cannot be played in the direction. -/
def ofDirection (timeline : Timeline α) (settings : Settings α) (surface : σ)
    (direction : Direction) (showsFinal : Bool) : Except DirectionError (View α σ) := do
  let direction ← timeline.allowed direction
  return {
    timeline, settings, showsFinal, direction, surface
    lastTrace := Trace.empty .forward }

/-- A view of a timeline on a surface, in the direction that a value stands for. -/
def ofValue {α : Type} [Written α] (timeline : Timeline α) (settings : Settings α) (surface : σ)
    (direction : Value α) (showsFinal : Bool) : Except DirectionError (View α σ) := do
  ofDirection timeline settings surface (← timeline.checkDirection direction) showsFinal

/-- The view in the direction that a value stands for. -/
def turned {α : Type} [Written α] (view : View α σ) (direction : Value α) :
    Except DirectionError (View α σ) :=
  (view.timeline.checkDirection direction).map fun direction => { view with direction }

/-- The number of steps. -/
def length (view : View α σ) : Nat := view.timeline.length

section

variable [Surface α σ]

/-- Draws the marker at the origin and renders a timeline at a position. -/
def scene (timeline : Timeline α) (settings : Settings α) (showsFinal : Bool)
    (direction : Direction) (position : Reading α) : Rendering σ (Trace α) := do
  let mark (style : String) : Drawing σ Unit := FrameMarker.draw style
  if settings.showsOriginFrame then
    (mark (settings.startColor direction)).rendering
  timeline.render position (if showsFinal then .forward else direction)
    (settings.reverses && !showsFinal)
    (if settings.showsCurrentFrame then some (mark (settings.currentColor direction)) else none)

/-- Draws the scene in the frame with its origin in the middle of the canvas. -/
def centered (timeline : Timeline α) (settings : Settings α) (showsFinal : Bool)
    (direction : Direction) (position : Reading α) : Rendering σ (Trace α) := do
  let base ← Drawing.rendering <|
    ExceptT.mk (pure (settings.baseTransform?.mapError DrawFault.arithmetic))
  (Drawing.setTransform base : Drawing σ Unit).rendering
  scene timeline settings showsFinal direction position

/-- Draws a timeline at a position on a surface that is cleared first. -/
def picture (timeline : Timeline α) (settings : Settings α) (showsFinal : Bool)
    (direction : Direction) (position : Reading α) : Rendering σ (Trace α) := do
  (Drawing.clear : Drawing σ Unit).rendering
  (Drawing.setTransform Affine.identity : Drawing σ Unit).rendering
  Drawing.framed (centered timeline settings showsFinal direction position)

/-- Draws the view at a position. The view remembers the trace of the last drawing that succeeded.
-/
def draw (position : Reading α) : ExceptT RenderError (StateM (View α σ)) (Trace α) :=
  fun ⟨timeline, settings, showsFinal, direction, lastTrace, surface⟩ =>
    match (picture timeline settings showsFinal direction position).run surface with
    | (.ok trace, surface) =>
      (.ok trace, ⟨timeline, settings, showsFinal, direction, trace, surface⟩)
    | (.error error, surface) =>
      (.error error, ⟨timeline, settings, showsFinal, direction, lastTrace, surface⟩)

/-- Draws the view at the end of the timeline. -/
def drawFinal : ExceptT RenderError (StateM (View α σ)) (Trace α) := do
  draw (.ok (ofInt (← get).length))

/-- Draws the view at each new value. -/
def listener : Listener RenderError (View α σ) α := fun v => do
  let _ ← draw (.ok v)

end

/-- A scheduler over the positions of the timeline. -/
def scheduler (view : View α σ) : Except SetupError (Scheduler α) :=
  Scheduler.ofSetup {
    minimum := .real zero
    maximum := .real (ofInt view.length)
    animationDuration := .real view.settings.animationDuration
    stepDuration := .real view.settings.stepDuration
    reverses := view.settings.reverses
    stepSize := some (.real view.settings.playStepSize) }

end View

end CanvasScript
