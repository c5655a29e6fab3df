import CanvasScript.Proofs.Timeline.Kept
import CanvasScript.Scalar.Binary64
import Mathlib.Algebra.Group.Int.Defs

/-!
# Frames behind renderings

Forward, each step of a rendering (`render`) stands in a frame of its own, and backward all of them
move a common one. The frame in which the surface was before comes back in any case: behind a
rendering that succeeds, and behind one that a direction, a shape or the marker breaks off.

* `FrameChange.Balanced`: in a row of changes of a frame, saves and restores match.
* `Drawing.IsBalanced`: a drawing changes the frame in a balanced row, up to where it ends or fails.
* `Drawing.isBalanced_iff`: **such drawings are those that keep what was remembered before**.
* `Timeline.frame_renderToward`: **a rendering with a balanced marker leaves the frame as it was**,
  on every surface whose shapes leave its frame alone.
-/

namespace CanvasScript

/-! ## Balanced changes -/

/-- A change of the frame of a surface. -/
inductive FrameChange (α : Type) where
  | save
  | restore
  | setTransform (m : Affine α)

namespace FrameChange

variable {α : Type}

/-- The frame after a change. -/
def apply (frame : Frame α) : FrameChange α → Frame α
  | .save => frame.save
  | .restore => frame.restore
  | .setTransform m => { frame with transform := m }

/-- The frame after changes, one after another. -/
def run (frame : Frame α) (changes : List (FrameChange α)) : Frame α := changes.foldl apply frame

/-- Every save has a restore of its own behind it, and every restore belongs to a save. -/
inductive Balanced : List (FrameChange α) → Prop where
  | nil : Balanced []
  | setTransform (m : Affine α) {rest : List (FrameChange α)} :
      Balanced rest → Balanced (.setTransform m :: rest)
  | block {body rest : List (FrameChange α)} :
      Balanced body → Balanced rest → Balanced (.save :: (body ++ .restore :: rest))

/-- **Balanced changes keep what was remembered before them.** -/
theorem Balanced.saved_run {changes : List (FrameChange α)} (h : Balanced changes)
    (frame : Frame α) : (run frame changes).saved = frame.saved := by
  induction h generalizing frame with
  | nil => rfl
  | setTransform m _ ih => exact ih { frame with transform := m }
  | @block body rest _ _ ihbody ihrest =>
    have hrestored : (run frame.save body).restore = frame := Frame.restore_eq (ihbody frame.save)
    have hrun : run frame (.save :: (body ++ .restore :: rest)) =
        run (run frame.save body).restore rest := by
      unfold run
      rw [List.foldl_cons, List.foldl_append, List.foldl_cons]
      rfl
    rw [hrun, hrestored]
    exact ihrest frame

end FrameChange

namespace Drawing

variable {α σ : Type} [Surface α σ]

/-- A drawing keeps its own saves and restores balanced: up to where it ends or fails, it has
changed the frame in a balanced row. -/
def IsBalanced (drawing : Drawing σ Unit) : Prop :=
  ∀ s, ∃ changes, FrameChange.Balanced changes ∧
    Surface.frame (drawing s).2 = FrameChange.run (Surface.frame s) changes

/-- **The balanced drawings are those that keep what was remembered before.** -/
theorem isBalanced_iff {drawing : Drawing σ Unit} :
    drawing.IsBalanced ↔ Keeps Surface.saved drawing := by
  constructor
  · intro h s
    obtain ⟨changes, hbalanced, hframe⟩ := h s
    unfold Surface.saved
    rw [hframe]
    exact hbalanced.saved_run _
  · intro h s
    -- all that shows of the drawing is the transform in which it ends
    refine ⟨[.setTransform (Surface.frame (drawing s).2).transform], .setTransform _ .nil, ?_⟩
    exact congrArg (Frame.mk _) (h s)

end Drawing

/-! ## Renderings -/

section

variable {α σ : Type} [Scalar α] [Surface α σ] [FramedSurface σ] {marker : Option (Drawing σ Unit)}

/-- **What is drawn in the frame of a step leaves the frame of the surface as it was.** -/
theorem Step.frame_within (step : Step α) (t : α) {drawing : Drawing σ Unit}
    (hdrawing : Keeps Surface.saved drawing) : Keeps Surface.frame (step.within t drawing) :=
  Drawing.frame_framed (Drawing.unmoved_saved.inAny.entered step t hdrawing)

namespace Timeline

theorem frame_drawForward (hmarker : ∀ mark ∈ marker, Keeps Surface.saved mark)
    (steps : List (Step α)) (position : α) :
    Keeps Surface.frame (drawForward steps position marker) :=
  keeps_drawForward
    (fun step _ t => step.frame_within t (Drawing.unmoved_saved.inAny.step (fun _ _ => trivial) t))
    (fun mark hmark step t => step.frame_within t (hmarker mark hmark)) position

theorem frame_drawBackward (hmarker : ∀ mark ∈ marker, Keeps Surface.saved mark)
    (steps : List (Step α)) (position : α) :
    Keeps Surface.frame (drawBackward steps position marker) :=
  Drawing.frame_framed
    (Drawing.unmoved_saved.inAny.allLeft (fun _ _ _ _ => trivial) hmarker position)

end Timeline

end

namespace Timeline

variable {α σ : Type} [Written α] [Surface α σ]

/-- Draws the timeline in the direction that a value stands for; other values are refused. -/
def renderToward (timeline : Timeline α) (position : Reading α) (direction : Value α)
    (reverses : Bool) (marker : Option (Drawing σ Unit)) : Rendering σ (Trace α) := do
  let direction ← ExceptT.mk (pure ((timeline.checkDirection direction).mapError .direction))
  timeline.render position direction reverses marker

/-- **A rendering leaves the frame as it was**, the transform in use and all that are remembered,
whether it succeeds or fails. -/
theorem frame_renderToward [FramedSurface σ] {marker : Option (Drawing σ Unit)}
    (hmarker : ∀ mark ∈ marker, mark.IsBalanced) (timeline : Timeline α) (position : Reading α)
    (direction : Value α) (reverses : Bool) (s : σ) :
    Surface.frame ((timeline.renderToward position direction reverses marker).run s).2 =
      Surface.frame s := by
  have hsaved : ∀ mark ∈ marker, Keeps Surface.saved mark := fun mark hmark =>
    Drawing.isBalanced_iff.mp (hmarker mark hmark)
  have hrender (direction : Direction) :
      Keeps Surface.frame (timeline.render position direction reverses marker) :=
    keeps_render (frame_drawForward hsaved timeline.steps)
      (frame_drawBackward hsaved timeline.steps) position direction reverses
  exact (Keeps.computed _).bind hrender s

end Timeline

/-- A program whose second figure is wider than any double. -/
def wideProgram : List (Command Float) := [
  .draw .fill (.rect (.int 0) (.int 0) (.int 1) (.int 1)) none,
  .draw .fill (.rect (.int (10 ^ 308)) (.int 0) (.int (10 ^ 308)) (.int 1)) none,
  .move (.translate (.int 1) (.int 0))]

/-- A canvas whose frame has been moved, with two transforms remembered. -/
def movedRaster : Raster Float where
  frame := ⟨Affine.shift 5 7, [Affine.identity, Affine.scaling 2 3]⟩
  background := Rgba.white
  canvas := Canvas.plain 3 2 Rgba.white

/-- A marker that saves and restores, moves the frame, and fails. -/
def brokenMarker : Drawing (Raster Float) Unit := do
  Drawing.framed (Drawing.setTransform (Affine.scaling 2 2) : Drawing (Raster Float) Unit)
  Drawing.setTransform (Affine.shift 1 1)
  throw (.arithmetic .notANumber)

theorem isBalanced_brokenMarker : brokenMarker.IsBalanced := by
  rw [Drawing.isBalanced_iff]
  have hsaved : Drawing.Unmoved (Surface.saved : Raster Float → _) := Drawing.unmoved_saved
  exact (hsaved.framed (hsaved.setTransform _)).bind fun _ =>
    (hsaved.setTransform _).bind fun _ => Keeps.computed (.error (DrawFault.arithmetic .notANumber))

/-- Forward a shape breaks the rendering off, backward the marker, and in no direction the value. -/
def brokenRuns : List (Float × Int × RenderError) := [
  (3, 1, .drawing (.arithmetic .tooLarge)),
  (2, -1, .drawing (.arithmetic .notANumber)),
  (3, 0, .direction (.unknown "0"))]

theorem frame_renderToward_broken :
    ∃ timeline : Timeline Float,
      Timeline.compile ⟨"black", "black"⟩ wideProgram = .ok timeline ∧ brokenMarker.IsBalanced ∧
      ∀ broken ∈ brokenRuns,
        let run := (timeline.renderToward (.ok broken.1) (.number (.int broken.2.1)) false
          (some brokenMarker)).run movedRaster
        run.1 = .error broken.2.2 ∧
          Surface.frame run.2 = ⟨Affine.shift 5 7, [Affine.identity, Affine.scaling 2 3]⟩ := by
  have hfails : ((Timeline.compile ⟨"black", "black"⟩ wideProgram).toOption.map fun timeline =>
      brokenRuns.map fun broken =>
        match ((timeline.renderToward (.ok broken.1) (.number (.int broken.2.1)) false
          (some brokenMarker)).run movedRaster).1 with
        | .ok _ => none
        | .error error => some error) = some (brokenRuns.map fun broken => some broken.2.2) := by
    decide +kernel
  obtain ⟨timeline, hcompile, hfails⟩ := Option.map_eq_some_iff.mp hfails
  have hmarker : ∀ mark ∈ some brokenMarker, mark.IsBalanced := fun mark hmark => by
    obtain rfl := Option.some.inj hmark
    exact isBalanced_brokenMarker
  refine ⟨timeline, toOption_eq_some.mp hcompile, isBalanced_brokenMarker, fun broken hmem =>
    ⟨?_, Timeline.frame_renderToward hmarker timeline _ _ false movedRaster⟩⟩
  have herror := List.map_inj_left.mp hfails broken hmem
  split at herror
  · cases herror
  · rename_i error hrun
    rw [hrun, Option.some.inj herror]

end CanvasScript
