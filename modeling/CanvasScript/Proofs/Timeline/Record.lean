import CanvasScript.Proofs.Except
import CanvasScript.Surface.Recording
import CanvasScript.Timeline.Render

/-!
# Drawing on recordings

What a drawing adds to a recording (`RecordingSurface`), and that it leaves the frame as it was.

* `Step.callsIn` are the calls of a step in a frame with a transform.
* `Step.run_within` and `Step.run_draw`: a step adds its calls and nothing else.
* `Recording.run_forM`: drawings one after another add their calls in order.
-/

namespace CanvasScript

variable {α : Type}

namespace Recording

/-- The recording with more calls. -/
def append (recording : Recording α) (calls : List (DrawCall α)) : Recording α :=
  { recording with calls := recording.calls ++ calls }

/-- The recording in another frame. -/
def inFrame (recording : Recording α) (frame : Frame α) : Recording α :=
  { recording with frame }

@[simp] theorem frame_append (recording : Recording α) (calls : List (DrawCall α)) :
    (recording.append calls).frame = recording.frame := rfl

@[simp] theorem append_nil (recording : Recording α) : recording.append [] = recording := by
  unfold append
  rw [List.append_nil]

theorem append_append (recording : Recording α) (calls calls' : List (DrawCall α)) :
    (recording.append calls).append calls' = recording.append (calls ++ calls') := by
  unfold append
  simp only [List.append_assoc]

/-- **Drawings one after another add their calls in order.** -/
theorem run_forM {β : Type} (draw : β → Drawing (Recording α) Unit)
    (calls : β → List (DrawCall α)) {frame : Frame α}
    (h : ∀ b (recording : Recording α), recording.frame = frame →
      (draw b) recording = (.ok (), recording.append (calls b))) :
    ∀ (items : List β) (recording : Recording α), recording.frame = frame →
      (items.forM draw) recording = (.ok (), recording.append (items.flatMap calls))
  | [], recording, _ => congrArg (Prod.mk _) (append_nil recording).symm
  | b :: rest, recording, hframe => by
    have hrest := run_forM draw calls h rest (recording.append (calls b)) hframe
    rw [append_append] at hrest
    exact (run_bind_ok (h b recording hframe)).trans hrest

/-- **What is framed leaves the frame as it was**: a drawing may move it, but not what it remembers.
-/
theorem run_framed {drawing : Drawing (Recording α) Unit} {recording : Recording α}
    {calls : List (DrawCall α)} {transform : Affine α}
    (h : drawing (recording.inFrame recording.frame.save) =
      (.ok (), (recording.append calls).inFrame ⟨transform, recording.frame.save.saved⟩)) :
    (Drawing.framed drawing) recording = (.ok (), recording.append calls) := by
  let restore (s : Recording α) : Recording α := s.inFrame s.frame.restore
  show ((drawing (recording.inFrame recording.frame.save)).1,
    restore (drawing (recording.inFrame recording.frame.save)).2) = _
  rw [h]
  rfl

end Recording

section

variable [Scalar α]

namespace Step

/-- The calls of a step that is drawn to `t` in a frame with a transform. -/
def callsIn (step : Step α) (t : α) (transform : Affine α) : List (DrawCall α) :=
  match step.command with
  | .draw paint figure _ =>
    [⟨.figure paint figure, (step.color.get paint).fade t, transform⟩]
  | _ => []

/-- **A step adds its calls in the frame in use.** -/
theorem run_draw (step : Step α) (t : α) (recording : Recording α) :
    (step.draw t) recording =
      (.ok (), recording.append (step.callsIn t recording.frame.transform)) := by
  unfold draw callsIn
  cases step.command with
  | draw paint figure color => rfl
  | _ => exact congrArg (Prod.mk _) recording.append_nil.symm

/-- The frame of a recording is moved. -/
theorem run_enter (m : Affine α) (recording : Recording α) :
    (Drawing.enter m) recording = (.ok (), recording.inFrame
      { recording.frame with transform := recording.frame.transform * m }) := rfl

/-- **A step in a frame of its own adds its calls and leaves the frame as it was.** -/
theorem run_within (step : Step α) (t : α) (recording : Recording α) :
    (step.within t (step.draw t)) recording = (.ok (), recording.append
      (step.callsIn t (recording.frame.transform * (step.progress t).matrix))) :=
  Recording.run_framed ((run_bind_ok (run_enter _ _)).trans (run_draw step t _))

end Step

/-- A rendering of a drawing fails as the drawing does, and otherwise has its result. -/
theorem run_rendering_return {σ β : Type} (drawing : Drawing σ Unit) (b : β) (s : σ) :
    (do drawing.rendering; return b : Rendering σ β).run s =
      (((drawing s).1.mapError RenderError.drawing).map fun _ => b, (drawing s).2) := by
  rcases h : drawing s with ⟨fault | _, s'⟩
  · exact run_bind_error (run_adapt_error RenderError.drawing h)
  · exact run_bind_ok (run_adapt_ok RenderError.drawing h)

end

end CanvasScript
