import CanvasScript.Proofs.Timeline.Kept
import CanvasScript.Scalar.Binary64
import CanvasScript.View
import Mathlib.Algebra.Group.Int.Defs

/-!
# Drawing a view again

A view (`TimelineView`) may be drawn many times, and turned in between; some drawings fail. Each one
starts from a cleared surface in the plain frame and leaves that frame behind. So what a drawing
shows does not depend on the drawings before.

* `Event` is one of the things that can be done with a view, and `runAll` does one after another,
  also after one that fails.
* `Continues first later`: a view shows the same as another one, on a surface that differs only in
  what was drawn and in the transform in use.

Results:
* `run_picture`: **a picture depends on the surface only as far as it was never drawn on**.
* `continues_runAll`: every history leads to a view that continues the first one.
* `draw_history`: **so a drawing after any history is the one of a fresh view**, on every lawful
  surface; recordings and raster surfaces are.

Out of scope: surfaces that are not lawful (`LawfulSurface`).
-/

namespace CanvasScript

open Scalar

namespace Timeline

/-- A direction that is allowed is the one that was asked for. -/
theorem eq_of_allowed {α : Type} {timeline : Timeline α} {direction direction' : Direction}
    (h : timeline.allowed direction = .ok direction') : direction' = direction := by
  unfold allowed at h
  split at h
  · cases h
  · exact (Except.ok.inj h).symm

end Timeline

namespace View

variable {α σ : Type}

/-! ## One picture -/

section

variable [Scalar α] [Surface α σ] {τ : Type} {f : σ → τ}

theorem keeps_scene (h : Drawing.Unmoved f) (timeline : Timeline α) (settings : Settings α)
    (showsFinal : Bool) (direction : Direction) (position : Reading α) :
    Keeps f (scene timeline settings showsFinal direction position) := by
  have hmarker : ∀ mark ∈ (if settings.showsCurrentFrame then
      some (FrameMarker.draw (settings.currentColor direction)) else none), Keeps f mark := by
    intro mark hmark
    split at hmark
    · cases hmark
      exact h.marker _
    · cases hmark
  have hrender := h.render hmarker timeline position (if showsFinal then .forward else direction)
    (settings.reverses && !showsFinal)
  exact Keeps.ite ((Keeps.adapt (h.marker _) RenderError.drawing).bind fun _ => hrender) hrender

theorem keeps_centered (h : Drawing.Unmoved f) (timeline : Timeline α) (settings : Settings α)
    (showsFinal : Bool) (direction : Direction) (position : Reading α) :
    Keeps f (centered timeline settings showsFinal direction position) :=
  (Keeps.adapt (Keeps.computed _) RenderError.drawing).bind fun _ =>
    (Keeps.adapt (h.setTransform _) RenderError.drawing).bind fun _ => keeps_scene h _ _ _ _ _

variable [LawfulSurface σ] (timeline : Timeline α) (settings : Settings α) (showsFinal : Bool)
  (direction : Direction) (position : Reading α)

/-- **A picture depends on the surface only as far as it was never drawn on**: it is drawn on the
cleared surface in the plain frame. -/
theorem run_picture (s : σ) :
    (picture timeline settings showsFinal direction position) s =
      (Drawing.framed (centered timeline settings showsFinal direction position))
        (Surface.blank s ⟨Affine.identity, Surface.saved s⟩) := by
  show (Drawing.framed (centered timeline settings showsFinal direction position))
    (Surface.withFrame (Surface.clear s)
      { Surface.frame (Surface.clear s) with transform := Affine.identity }) = _
  rw [LawfulSurface.frame_clear]
  rfl

/-- **A picture leaves the plain frame behind**, and what was remembered before, also where it
fails. -/
theorem frame_picture (s : σ) :
    Surface.frame ((picture timeline settings showsFinal direction position) s).2 =
      ⟨Affine.identity, Surface.saved s⟩ := by
  rw [run_picture, Drawing.frame_framed (keeps_centered Drawing.unmoved_saved _ _ _ _ _)]
  exact LawfulSurface.frame_withFrame _ _

/-- A picture leaves the surface as it was, but for the transform and what is drawn. -/
theorem blank_picture (s : σ) :
    Surface.blank ((picture timeline settings showsFinal direction position) s).2 =
      Surface.blank s := by
  rw [run_picture, Drawing.unmoved_blank.framed (keeps_centered Drawing.unmoved_blank _ _ _ _ _),
    Drawing.blank_blank]

end

/-! ## Drawings one after another -/

section

variable [Scalar α]

/-- What can be done with a view. -/
inductive Event (α : Type) where
  | draw (position : Reading α)
  /-- The direction is a value that may stand for one. -/
  | turn (direction : Value α)

/-- A view shows the same as another one but for its direction, on a surface that differs only in
the transform in use and in what was drawn. -/
structure Continues [Surface α σ] (first later : View α σ) : Prop where
  timeline : later.timeline = first.timeline
  settings : later.settings = first.settings
  showsFinal : later.showsFinal = first.showsFinal
  allowed : first.timeline.allowed later.direction = .ok later.direction
  saved : Surface.saved later.surface = Surface.saved first.surface
  blank : Surface.blank later.surface = Surface.blank first.surface

/-- A drawing of a view is the one of a fresh view in the same direction. -/
structure DrawnAfresh [Surface α σ] (position : Reading α) (fresh later : View α σ) : Prop where
  /-- The result is the same, a trace or an error. -/
  result : ((draw position) later).1 = ((draw position) fresh).1
  /-- The same is drawn, and in the same frame. -/
  surface : ((draw position) later).2.surface = ((draw position) fresh).2.surface
  /-- A drawing that succeeds leaves the same view in all, and the view remembers its trace. -/
  view : ∀ {trace}, ((draw position) later).1 = .ok trace →
    ((draw position) later).2 = ((draw position) fresh).2 ∧
      ((draw position) later).2.lastTrace = trace
  /-- The plain frame is left behind, with as many transforms remembered as before. -/
  frame : Surface.frame ((draw position) later).2.surface =
    ⟨Affine.identity, Surface.saved later.surface⟩

end

section

variable [Written α] [Surface α σ]

/-- The view after an event. One that fails leaves the direction and the trace as they were. -/
def Event.run : Event α → View α σ → View α σ
  | .draw position, view => ((View.draw position) view).2
  | .turn direction, view => (view.turned direction).toOption.getD view

/-- Does one thing after another, also after one that fails. -/
def runAll : List (Event α) → View α σ → View α σ
  | [], view => view
  | event :: rest, view => runAll rest (event.run view)

end

section

variable [Scalar α]

variable [Surface α σ] {first later view : View α σ}

/-- **What a drawing does to a view**: the surface is drawn on, and the trace is remembered if there
is one. -/
theorem run_draw (view : View α σ) (position : Reading α) :
    (draw position) view =
      let run := (picture view.timeline view.settings view.showsFinal view.direction position)
        view.surface
      (run.1, { view with
        lastTrace := run.1.toOption.getD view.lastTrace
        surface := run.2 }) := by
  obtain ⟨timeline, settings, showsFinal, direction, lastTrace, surface⟩ := view
  unfold draw ExceptT.run
  dsimp only
  rcases (picture timeline settings showsFinal direction position) surface with
    ⟨error | trace, surface⟩
  · rfl
  · rfl

variable [LawfulSurface σ]

/-- A view that continues another one shows the picture of that one in its own direction. -/
theorem Continues.picture_eq (h : Continues first later) (position : Reading α) :
    (picture later.timeline later.settings later.showsFinal later.direction position)
        later.surface =
      (picture first.timeline first.settings first.showsFinal later.direction position)
        first.surface := by
  rw [run_picture, run_picture, h.timeline, h.settings, h.showsFinal, h.saved, h.blank]

theorem Continues.draw (h : Continues first later) (position : Reading α) :
    Continues first ((View.draw position) later).2 := by
  rw [run_draw]
  exact {
    timeline := h.timeline
    settings := h.settings
    showsFinal := h.showsFinal
    allowed := h.allowed
    saved := (congrArg Frame.saved (frame_picture _ _ _ _ position later.surface)).trans h.saved
    blank := (blank_picture _ _ _ _ position later.surface).trans h.blank }

end

section

variable [Written α] [Surface α σ] {first later view : View α σ}

/-- A turn that is refused changes nothing; one that is not leads to an allowed direction. -/
theorem Continues.turn (h : Continues first later) (direction : Value α) :
    Continues first ((Event.turn direction).run later) := by
  show Continues first ((later.turned direction).toOption.getD later)
  cases hturned : later.turned direction with
  | error _ => exact h
  | ok turned =>
    obtain ⟨direction', hchecked, rfl⟩ := map_eq_ok.mp hturned
    have hallowed : first.timeline.allowed direction' = .ok direction' := by
      unfold Timeline.checkDirection at hchecked
      split at hchecked
      · rw [h.timeline] at hchecked
        exact Timeline.eq_of_allowed hchecked ▸ hchecked
      · cases hchecked
    exact { h with allowed := hallowed }

variable {timeline : Timeline α} {settings : Settings α} {surface : σ} {direction : Direction}
  {showsFinal : Bool}

/-- A new view continues itself. -/
theorem continues_of_ofDirection
    (h : ofDirection timeline settings surface direction showsFinal = .ok view) :
    Continues view view := by
  obtain ⟨direction', hallowed, hview⟩ := bind_eq_ok.mp h
  cases hview
  have hsame : timeline.allowed direction' = .ok direction' :=
    Timeline.eq_of_allowed hallowed ▸ hallowed
  exact ⟨rfl, rfl, rfl, hsame, rfl, rfl⟩

variable [LawfulSurface σ]

/-- One event keeps what a view continues. -/
theorem Continues.event (h : Continues first later) :
    ∀ event : Event α, Continues first (event.run later)
  | .draw position => h.draw position
  | .turn direction => h.turn direction

/-- **Every history leads to a view that continues the first one.** -/
theorem continues_runAll : ∀ (history : List (Event α)) {later : View α σ},
    Continues first later → Continues first (runAll history later)
  | [], _, h => h
  | event :: rest, _, h => continues_runAll rest (h.event event)

/-- A view that continues another one is drawn like that one in its direction; only the remembered
trace may differ, and only where the drawing fails. -/
theorem Continues.draw_eq (h : Continues first later) (position : Reading α) :
    (View.draw position) later =
      let run := (View.draw position) { first with direction := later.direction }
      (run.1, { run.2 with lastTrace := run.1.toOption.getD later.lastTrace }) := by
  rw [run_draw, run_draw]
  dsimp only
  rw [h.picture_eq position, h.timeline, h.settings, h.showsFinal]

theorem Continues.drawnAfresh (h : Continues first later) (position : Reading α) :
    DrawnAfresh position { first with direction := later.direction } later where
  result := by rw [h.draw_eq]
  surface := by rw [h.draw_eq]
  view := by
    intro trace htrace
    rw [h.draw_eq] at htrace ⊢
    rw [run_draw] at htrace ⊢
    dsimp only at htrace ⊢
    rw [htrace]
    exact ⟨rfl, rfl⟩
  frame := by
    rw [run_draw]
    exact frame_picture _ _ _ _ position later.surface

/-- **A drawing after any history is the one of a fresh view**: of a new view with the same
timeline, settings and surface, in the direction to which the history has led. The same is drawn,
with the same result, and the plain frame is left behind. -/
theorem draw_history (hview : ofDirection timeline settings surface direction showsFinal = .ok view)
    (history : List (Event α)) (position : Reading α) :
    ∃ fresh,
      ofDirection timeline settings surface (runAll history view).direction showsFinal =
        .ok fresh ∧
      DrawnAfresh position fresh (runAll history view) := by
  have hcontinues := continues_runAll history (continues_of_ofDirection hview)
  refine ⟨{ view with direction := (runAll history view).direction }, ?_,
    hcontinues.drawnAfresh position⟩
  obtain ⟨direction', -, hmade⟩ := bind_eq_ok.mp hview
  cases hmade
  show (timeline.allowed _ >>= _) = _
  rw [hcontinues.allowed]
  rfl

end

/-- A program whose first figure lies beyond every cell. -/
def farProgram : List (Command Float) := [
  .draw .fill (.rect (.int (10 ^ 400)) (.int 0) (.int 1) (.int 1)) none,
  .move (.translate (.int 1) (.int 0)),
  .draw .fill (.rect (.int 0) (.int 0) (.int 1) (.int 1)) none]

/-- The settings of a small canvas without markers. -/
def smallSettings : Settings Float :=
  { Settings.default with
    canvasSize := 2, canvasScale := 1, showsOriginFrame := false, showsCurrentFrame := false }

/-- Drawings that fail, a turn, a drawing that succeeds, and a turn that is refused. -/
def mixedHistory : List (Event Float) :=
  [.draw (.ok 2), .draw (.error .tooLarge), .turn (.number (.int (-1))), .draw (.ok 2),
    .turn (.text "up")]

/-- A recording and a canvas of three by two cells. On the canvas, the first drawing fails half
way. -/
theorem draw_history_mixed :
    ∃ (timeline : Timeline Float) (recorder fresh : View Float (Recording Float))
      (painter clean : View Float (Raster Float)),
      Timeline.compile ⟨"black", "black"⟩ farProgram = .ok timeline ∧
      ofDirection timeline smallSettings (Recording.start Affine.identity) .forward false =
        .ok recorder ∧
      ofDirection timeline smallSettings (Recording.start Affine.identity) .backward false =
        .ok fresh ∧
      DrawnAfresh (.ok 1) fresh (runAll mixedHistory recorder) ∧
      ofDirection timeline smallSettings (Raster.start 3 2 Rgba.white Affine.identity) .forward
        false = .ok painter ∧
      ((View.draw (.ok 2)) painter).1.isOk = false ∧
      ofDirection timeline smallSettings (Raster.start 3 2 Rgba.white Affine.identity) .backward
        false = .ok clean ∧
      DrawnAfresh (.ok 1) clean (runAll mixedHistory painter) ∧
      ((View.draw (.ok 1)) (runAll mixedHistory painter)).1.isOk = true := by
  have hcheck : ((Timeline.compile ⟨"black", "black"⟩ farProgram).toOption.bind fun timeline =>
      (ofDirection timeline smallSettings (Recording.start Affine.identity) .forward
          false).toOption.bind fun recorder : View Float (Recording Float) =>
        (ofDirection timeline smallSettings (Raster.start 3 2 Rgba.white Affine.identity)
            .forward false).toOption.map fun painter : View Float (Raster Float) =>
          ((runAll mixedHistory recorder).direction, (runAll mixedHistory painter).direction,
            ((View.draw (.ok 2)) painter).1.isOk,
            ((View.draw (.ok 1)) (runAll mixedHistory painter)).1.isOk)) =
      some (.backward, .backward, false, true) := by
    decide +kernel
  obtain ⟨timeline, hcompile, hcheck⟩ := Option.bind_eq_some_iff.mp hcheck
  obtain ⟨recorder, hrecorder, hcheck⟩ := Option.bind_eq_some_iff.mp hcheck
  obtain ⟨painter, hpainter, hcheck⟩ := Option.map_eq_some_iff.mp hcheck
  simp only [Prod.mk.injEq] at hcheck
  obtain ⟨hturned, hpainted, hfailed, hdrawn⟩ := hcheck
  obtain ⟨fresh, hfresh, hafresh⟩ :=
    draw_history (toOption_eq_some.mp hrecorder) mixedHistory (.ok 1)
  obtain ⟨clean, hclean, hcleaned⟩ :=
    draw_history (toOption_eq_some.mp hpainter) mixedHistory (.ok 1)
  rw [hturned] at hfresh
  rw [hpainted] at hclean
  exact ⟨timeline, recorder, fresh, painter, clean, toOption_eq_some.mp hcompile,
    toOption_eq_some.mp hrecorder, hfresh, hafresh, toOption_eq_some.mp hpainter, hfailed, hclean,
    hcleaned, hdrawn⟩

end View

end CanvasScript
