import CanvasScript.Proofs.Surface
import CanvasScript.Timeline.Render

/-!
# What renderings keep

A rendering (`render`) is built of transforms, shapes and frames of their own, and of what a marker
does. So it keeps whatever these keep, in both directions, whether it succeeds or fails.

* `Timeline.keeps_render`: a rendering keeps what the drawings of both directions keep.
* `UnmovedIn.render`: **a rendering keeps what no drawing in its colours changes**, as far as its
  marker does, and so what no drawing changes (`Unmoved.render`).
-/

namespace CanvasScript

open Scalar

variable {α σ τ : Type} [Scalar α] [Surface α σ] {f : σ → τ}

namespace Timeline

variable {marker : Option (Drawing σ Unit)}

theorem mem_of_begun {steps : List (Step α)} {position : α} {entry : Step α × α}
    (h : entry ∈ begun steps position) : entry.1 ∈ steps := by
  obtain ⟨step, hstep, rfl⟩ := List.mem_map.mp (List.mem_filter.mp h).1
  exact hstep

/-- Forward, all is drawn in the frames of steps. -/
theorem keeps_drawForward {steps : List (Step α)}
    (hsteps : ∀ step ∈ steps, ∀ t : α, Keeps f (step.within t (step.draw t) : Drawing σ Unit))
    (hmarker : ∀ mark ∈ marker, ∀ (step : Step α) (t : α), Keeps f (step.within t mark))
    (position : α) : Keeps f (drawForward steps position marker) := by
  refine (Keeps.forM fun entry hentry => hsteps entry.1 (mem_of_begun hentry) entry.2).bind
    fun _ => ?_
  split
  · rename_i mark step t _
    exact hmarker mark rfl step t
  · exact Keeps.pure ()

/-- A rendering keeps what the drawings of both directions keep. -/
theorem keeps_render {timeline : Timeline α}
    (hforward : ∀ position, Keeps f (drawForward timeline.steps position marker))
    (hbackward : ∀ position, Keeps f (drawBackward timeline.steps position marker))
    (position : Reading α) (direction : Direction) (reverses : Bool) :
    Keeps f (timeline.render position direction reverses marker) := by
  refine (Keeps.computed _).bind fun trace => (Keeps.adapt ?_ RenderError.drawing).bind fun _ =>
    Keeps.pure trace
  unfold Timeline.draw
  refine Keeps.ite (Keeps.pure ()) ?_
  cases trace.direction with
  | forward => exact hforward _
  | backward => exact hbackward _

end Timeline

/-- A step draws in colours of a kind, however far it has faded in. -/
def Step.DrawsIn (kind : Rgba → Prop) (step : Step α) : Prop :=
  ∀ (paint : Paint) (t : α), kind ((step.color.get paint).fade t)

namespace Drawing

variable {kind : Rgba → Prop} {marker : Option (Drawing σ Unit)}

namespace UnmovedIn

theorem step (h : UnmovedIn kind f) {step : Step α} (hstep : step.DrawsIn kind) (t : α) :
    Keeps f (step.draw t : Drawing σ Unit) := by
  unfold Step.draw
  cases step.command with
  | draw paint figure color => exact h.paint _ _ _ (hstep paint t)
  | _ => exact Keeps.pure ()

/-- What is drawn in the frame of a step, before that frame is left. -/
theorem entered (h : UnmovedIn kind f) (step : Step α) (t : α) {drawing : Drawing σ Unit}
    (hdrawing : Keeps f drawing) :
    Keeps f (do Drawing.enter (step.progress t).matrix; drawing : Drawing σ Unit) :=
  (h.enter _).bind fun _ => hdrawing

variable {steps : List (Step α)}

theorem drawForward (h : UnmovedIn kind f) (hsteps : ∀ step ∈ steps, step.DrawsIn kind)
    (hmarker : ∀ mark ∈ marker, Keeps f mark) (position : α) :
    Keeps f (Timeline.drawForward steps position marker) :=
  Timeline.keeps_drawForward
    (fun step hstep t => h.framed (h.entered step t (h.step (hsteps step hstep) t)))
    (fun mark hmark step t => h.framed (h.entered step t (hmarker mark hmark))) position

theorem drawLeft (h : UnmovedIn kind f) {step : Step α} (hstep : step.DrawsIn kind)
    (position : α) : Keeps f (Timeline.drawLeft position step : Drawing σ Unit) := by
  unfold Timeline.drawLeft
  exact Keeps.ite ((h.enter _).bind fun _ => h.step hstep _) (Keeps.pure ())

/-- What is drawn backward, before the common frame is left. -/
theorem allLeft (h : UnmovedIn kind f) (hsteps : ∀ step ∈ steps, step.DrawsIn kind)
    (hmarker : ∀ mark ∈ marker, Keeps f mark) (position : α) :
    Keeps f (do steps.forM (Timeline.drawLeft position); marker.getD (pure ()) :
      Drawing σ Unit) := by
  refine (Keeps.forM fun step hstep => h.drawLeft (hsteps step hstep) position).bind fun _ => ?_
  cases marker with
  | none => exact Keeps.pure ()
  | some mark => exact hmarker mark rfl

theorem drawBackward (h : UnmovedIn kind f) (hsteps : ∀ step ∈ steps, step.DrawsIn kind)
    (hmarker : ∀ mark ∈ marker, Keeps f mark) (position : α) :
    Keeps f (Timeline.drawBackward steps position marker) :=
  h.framed (h.allLeft hsteps hmarker position)

/-- **A rendering keeps what no drawing in its colours changes.** -/
theorem render (h : UnmovedIn kind f) {timeline : Timeline α}
    (hsteps : ∀ step ∈ timeline.steps, step.DrawsIn kind)
    (hmarker : ∀ mark ∈ marker, Keeps f mark) (position : Reading α) (direction : Direction)
    (reverses : Bool) : Keeps f (timeline.render position direction reverses marker) :=
  Timeline.keeps_render (h.drawForward hsteps hmarker) (h.drawBackward hsteps hmarker) position
    direction reverses

end UnmovedIn

/-- **A rendering keeps what no drawing changes.** -/
theorem Unmoved.render (h : Unmoved f) (hmarker : ∀ mark ∈ marker, Keeps f mark)
    (timeline : Timeline α) (position : Reading α) (direction : Direction) (reverses : Bool) :
    Keeps f (timeline.render position direction reverses marker) :=
  h.inAny.render (fun _ _ _ _ => trivial) hmarker position direction reverses

end Drawing

end CanvasScript
