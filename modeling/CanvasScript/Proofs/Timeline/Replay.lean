import CanvasScript.Proofs.Except
import CanvasScript.Raster
import CanvasScript.Scalar.Binary64
import CanvasScript.Surface.Recording
import CanvasScript.Timeline.Render

/-!
# Drawing recorded calls again

A recording (`RecordingSurface`) keeps all that a raster surface (`RasterSurface`) looks at when it
draws a shape: the shape, its colour and the transform in use. So a rendering may be recorded first
and drawn on a canvas later.

* `Recording.replay` draws the calls of a recording on any surface, each in its own transform.
* `Shows fresh raster recording`: both stand in the same frame, and the calls of the recording,
  drawn on a fresh surface, give the canvas of the raster surface.
* `Together fresh x y`: where the drawing `x` succeeds on a raster surface, `y` succeeds on a
  recording with the same result, and what the one shows stays what the other has. There is one rule
  for each construct of a drawing.
* `Timeline.render_replayed`: **a rendering that succeeds is the replay of its recording**, cell by
  cell.

Out of scope: markers. Their lines have widths, which a recording does not keep.
-/

namespace CanvasScript

open Scalar

variable {α : Type} [Scalar α]

/-- Draws a shape again, in the transform that it was drawn in. -/
def DrawCall.replay {σ : Type} [Surface α σ] (call : DrawCall α) : Drawing σ Unit := do
  Drawing.setTransform call.transform
  Surface.paint call.shape Step.lineWidth call.color

/-- Draws what was recorded, call by call. -/
def Recording.replay {σ : Type} [Surface α σ] (recording : Recording α) : Drawing σ Unit :=
  recording.calls.forM DrawCall.replay

/-! ## One shape -/

namespace Raster

/-- A shape is drawn where the cells that it selects can be told. -/
theorem paint_eq_ok {raster raster' : Raster α} {shape : Shape α} {width : Number α}
    {color : Rgba} :
    (Surface.paint shape width color : Drawing (Raster α) Unit) raster = (.ok (), raster') ↔
      ∃ mask, maskOf raster.canvas.width raster.canvas.height raster.frame.transform shape width =
        .ok mask ∧ raster' = { raster with canvas := raster.canvas.paint mask color } := by
  show raster.paint shape width color = _ ↔ _
  unfold paint
  constructor
  · intro h
    split at h
    · cases h
    · rename_i mask hmask
      cases h
      exact ⟨mask, hmask, rfl⟩
  · rintro ⟨mask, hmask, rfl⟩
    rw [hmask]

omit [Scalar α] in
/-- A surface of a size starts with its canvas in the background colour. -/
theorem eq_start_of_ofSize? {width height : Int} {background : Rgba} {transform : Affine α}
    {raster : Raster α} (h : ofSize? width height background transform = some raster) :
    raster = start width.toNat height.toNat background transform := by
  unfold ofSize? at h
  split at h
  · cases h
  · exact (Option.some.inj h).symm

end Raster

/-- A raster surface shows what a recording has: they stand in the same frame, and the calls give
its canvas when they are drawn on a fresh surface. -/
structure Shows (fresh raster : Raster α) (recording : Recording α) : Prop where
  frame : raster.frame = recording.frame
  canvas : ∃ replayed, recording.replay fresh = (.ok (), replayed) ∧
    replayed.canvas = raster.canvas

namespace Shows

variable {fresh raster raster' : Raster α} {recording : Recording α}

/-- Nothing is shown of a recording without calls. -/
theorem start (fresh : Raster α) {transform : Affine α} (hframe : raster.frame = ⟨transform, []⟩)
    (hcanvas : fresh.canvas = raster.canvas) : Shows fresh raster (Recording.start transform) :=
  ⟨hframe, fresh, rfl, hcanvas⟩

/-- A change of the frame is not drawn. -/
theorem changeFrame (h : Shows fresh raster recording) (f : Frame α → Frame α) :
    Shows fresh (Surface.withFrame raster (f (Surface.frame raster)))
      (Surface.withFrame recording (f (Surface.frame recording))) :=
  ⟨congrArg f h.frame, h.canvas⟩

/-- **A shape that is drawn is recorded**, with all that its cells depend on. -/
theorem record (h : Shows fresh raster recording) {shape : Shape α} {color : Rgba}
    (hpaint : (Surface.paint shape Step.lineWidth color : Drawing (Raster α) Unit) raster =
      (.ok (), raster')) : Shows fresh raster' (recording.record shape color) := by
  obtain ⟨mask, hmask, rfl⟩ := Raster.paint_eq_ok.mp hpaint
  obtain ⟨replayed, hreplay, hcanvas⟩ := h.canvas
  let call : DrawCall α := ⟨shape, color, recording.frame.transform⟩
  let moved : Raster α :=
    { replayed with frame := { replayed.frame with transform := call.transform } }
  have hlast : (call.replay : Drawing (Raster α) Unit) replayed =
      (.ok (), { moved with canvas := moved.canvas.paint mask color }) := by
    have hmove : (Drawing.setTransform call.transform : Drawing (Raster α) Unit) replayed =
        (.ok (), moved) := rfl
    refine (run_bind_ok hmove).trans (Raster.paint_eq_ok.mpr ⟨mask, ?_, rfl⟩)
    show Raster.maskOf replayed.canvas.width replayed.canvas.height recording.frame.transform shape
      Step.lineWidth = _
    rw [hcanvas, ← h.frame, hmask]
  refine ⟨h.frame, { moved with canvas := moved.canvas.paint mask color }, ?_,
    congrArg (fun canvas : Canvas => canvas.paint mask color) hcanvas⟩
  show (recording.calls ++ [call]).forM DrawCall.replay fresh = _
  rw [List.forM_eq_forM, List.forM_append]
  exact (run_bind_ok hreplay).trans ((run_bind_ok hlast).trans rfl)

end Shows

/-! ## Drawings on both surfaces -/

/-- Where the first drawing succeeds on a raster surface, the second succeeds on a recording that it
shows, with the same result, and it is still shown. -/
def Together {ε β : Type} (fresh : Raster α) (x : ExceptT ε (StateM (Raster α)) β)
    (y : ExceptT ε (StateM (Recording α)) β) : Prop :=
  ∀ raster recording b raster', Shows fresh raster recording → x raster = (.ok b, raster') →
    ∃ recording', y recording = (.ok b, recording') ∧ Shows fresh raster' recording'

section

variable {ε β γ : Type} {fresh : Raster α}

theorem Together.pure (b : β) : Together (ε := ε) fresh (pure b) (pure b) := by
  intro raster recording b' raster' hshows h
  cases h
  exact ⟨recording, rfl, hshows⟩

/-- What is computed apart from the surface is the same on both. -/
theorem Together.computed (result : Except ε β) :
    Together fresh (ExceptT.mk (Pure.pure result)) (ExceptT.mk (Pure.pure result)) := by
  intro raster recording b raster' hshows h
  obtain ⟨hresult, rfl⟩ := Prod.mk.inj h
  exact ⟨recording, Prod.ext hresult rfl, hshows⟩

theorem Together.bind {x : ExceptT ε (StateM (Raster α)) β}
    {y : ExceptT ε (StateM (Recording α)) β} {f : β → ExceptT ε (StateM (Raster α)) γ}
    {g : β → ExceptT ε (StateM (Recording α)) γ} (hx : Together fresh x y)
    (hf : ∀ b, Together fresh (f b) (g b)) : Together fresh (x >>= f) (y >>= g) := by
  intro raster recording c raster' hshows h
  obtain ⟨b, between, hfirst, hrest⟩ := run_bind_eq_ok.mp h
  obtain ⟨recording', hy, hshows'⟩ := hx _ _ _ _ hshows hfirst
  rw [run_bind_ok hy]
  exact hf b _ _ _ _ hshows' hrest

theorem Together.forM {f : β → ExceptT ε (StateM (Raster α)) PUnit}
    {g : β → ExceptT ε (StateM (Recording α)) PUnit} (h : ∀ b, Together fresh (f b) (g b)) :
    ∀ items : List β, Together fresh (items.forM f) (items.forM g)
  | [] => Together.pure ()
  | b :: rest => (h b).bind fun _ => forM h rest

theorem Together.ite {p : Prop} [Decidable p] {x x' : ExceptT ε (StateM (Raster α)) β}
    {y y' : ExceptT ε (StateM (Recording α)) β} (h : Together fresh x y)
    (h' : Together fresh x' y') :
    Together fresh (if p then x else x') (if p then y else y') := by
  split
  · exact h
  · exact h'

/-- Errors of another type change nothing where there are none. -/
theorem Together.adapt {δ : Type} {x : ExceptT ε (StateM (Raster α)) β}
    {y : ExceptT ε (StateM (Recording α)) β} (h : Together fresh x y) (adapter : ε → δ) :
    Together fresh (x.adapt adapter) (y.adapt adapter) := by
  intro raster recording b raster' hshows hrun
  obtain ⟨hresult, rfl⟩ := Prod.mk.inj hrun
  obtain ⟨recording', hy, hshows'⟩ :=
    h _ _ _ _ hshows (Prod.ext (mapError_eq_ok.mp hresult) rfl)
  exact ⟨recording', run_adapt_ok adapter hy, hshows'⟩

theorem Together.changeFrame (f : Frame α → Frame α) :
    Together fresh (Drawing.changeFrame f) (Drawing.changeFrame f) := by
  intro raster recording b raster' hshows h
  cases h
  exact ⟨_, rfl, hshows.changeFrame f⟩

/-- The transform in use is the same on both. -/
theorem Together.transform : Together fresh Drawing.transform Drawing.transform := by
  intro raster recording m raster' hshows h
  cases h
  refine ⟨recording, ?_, hshows⟩
  show (Except.ok recording.frame.transform, recording) = (.ok raster.frame.transform, recording)
  rw [hshows.frame]

theorem Together.enter (m : Affine α) : Together fresh (Drawing.enter m) (Drawing.enter m) :=
  Together.transform.bind fun _ => Together.changeFrame _

/-- A frame of its own is left again on both. -/
theorem Together.framed {x : ExceptT ε (StateM (Raster α)) β}
    {y : ExceptT ε (StateM (Recording α)) β} (h : Together fresh x y) :
    Together fresh (Drawing.framed x) (Drawing.framed y) := by
  intro raster recording b raster' hshows hrun
  obtain ⟨hresult, rfl⟩ := Prod.mk.inj hrun
  obtain ⟨recording', hy, hshows'⟩ :=
    h _ _ _ _ (hshows.changeFrame Frame.save) (Prod.ext hresult rfl)
  refine ⟨_, ?_, hshows'.changeFrame Frame.restore⟩
  exact congrArg (fun run : Except ε β × Recording α => (run.1,
    Surface.withFrame run.2 (Surface.frame run.2).restore)) hy

/-- **A shape is drawn on both.** -/
theorem Together.paint (shape : Shape α) (color : Rgba) :
    Together fresh (Surface.paint shape Step.lineWidth color)
      (Surface.paint shape Step.lineWidth color) := by
  intro raster recording b raster' hshows h
  exact ⟨recording.record shape color, rfl, hshows.record h⟩

end

/-! ## Steps and timelines -/

section

variable {fresh : Raster α}

namespace Step

theorem together_draw (step : Step α) (t : α) : Together fresh (step.draw t) (step.draw t) := by
  unfold draw
  cases step.command with
  | draw paint figure color => exact Together.paint _ _
  | _ => exact Together.pure ()

theorem together_within (step : Step α) (t : α) :
    Together fresh (step.within t (step.draw t)) (step.within t (step.draw t)) :=
  ((Together.enter _).bind fun _ => step.together_draw t).framed

end Step

namespace Timeline

theorem together_drawForward (steps : List (Step α)) (position : α) :
    Together fresh (drawForward steps position none) (drawForward steps position none) := by
  have hsteps (entry : Step α × α) : Together fresh
      (entry.1.within entry.2 (entry.1.draw entry.2))
      (entry.1.within entry.2 (entry.1.draw entry.2)) := entry.1.together_within entry.2
  exact (Together.forM hsteps (begun steps position)).bind fun _ => Together.pure ()

theorem together_drawLeft (position : α) (step : Step α) :
    Together fresh (drawLeft position step) (drawLeft position step) := by
  unfold drawLeft
  exact Together.ite ((Together.enter _).bind fun _ => step.together_draw _) (Together.pure ())

theorem together_drawBackward (steps : List (Step α)) (position : α) :
    Together fresh (drawBackward steps position none) (drawBackward steps position none) :=
  ((Together.forM (together_drawLeft position) steps).bind fun _ => Together.pure ()).framed

/-- **A timeline is rendered alike on both surfaces.** -/
theorem together_render (timeline : Timeline α) (position : Reading α) (direction : Direction)
    (reverses : Bool) :
    Together fresh (timeline.render position direction reverses none)
      (timeline.render position direction reverses none) := by
  refine (Together.computed _).bind fun trace =>
    (Together.adapt ?_ RenderError.drawing).bind fun _ => Together.pure trace
  unfold draw
  refine Together.ite (Together.pure ()) ?_
  cases trace.direction with
  | forward => exact together_drawForward _ _
  | backward => exact together_drawBackward _ _

end Timeline

end

namespace Timeline

/-- **A rendering that succeeds is the replay of its recording.** Where a timeline is rendered on a
raster surface, it is rendered on a recording with the same trace, and the recorded calls, drawn in
order on any fresh surface of the same size and background, give the same canvas. -/
theorem render_replayed (timeline : Timeline α) (position : Reading α) (direction : Direction)
    (reverses : Bool) {width height : Int} {background : Rgba} {base : Affine α}
    {start raster : Raster α} (hstart : Raster.ofSize? width height background base = some start)
    {trace : Trace α} (hrender : (timeline.render position direction reverses none) start =
      (.ok trace, raster)) :
    ∃ recording : Recording α,
      (timeline.render position direction reverses none) (Recording.start base) =
        (.ok trace, recording) ∧
      ∀ {transform : Affine α} {fresh : Raster α},
        Raster.ofSize? width height background transform = some fresh →
        ∃ replayed, recording.replay fresh = (.ok (), replayed) ∧
          replayed.canvas = raster.canvas := by
  obtain rfl := Raster.eq_start_of_ofSize? hstart
  have hstarts {transform : Affine α} : Shows
      (Raster.start width.toNat height.toNat background transform)
      (Raster.start width.toNat height.toNat background base) (Recording.start base) :=
    .start _ rfl rfl
  obtain ⟨recording, hrecording, hshows⟩ :=
    timeline.together_render position direction reverses _ _ _ _ (@hstarts base) hrender
  refine ⟨recording, hrecording, fun {transform fresh} hfresh => ?_⟩
  obtain rfl := Raster.eq_start_of_ofSize? hfresh
  obtain ⟨recording', hrecording', hshows'⟩ :=
    timeline.together_render position direction reverses _ _ _ _ (@hstarts transform) hrender
  obtain rfl : recording = recording' :=
    (Prod.mk.inj (hrecording.symm.trans hrecording')).2
  exact hshows'.canvas

end Timeline

/-- A program that saves and restores, with a figure in its own colour over one in the style. -/
def layeredProgram : List (Command Float) := [
  .save,
  .move (.translate (.int 1) (.real 0.5)),
  .style .fill "#ff000080",
  .draw .fill (.rect (.int 0) (.int 0) (.int 2) (.int 2)) none,
  .restore,
  .draw .stroke (.triangle (.int 0) (.int 0) (.int 3) (.int 0) (.int 0) (.int 3)) (some "blue")]

/-- A canvas of three by two cells, in the middle of the last step. -/
theorem render_replayed_layered :
    ∃ (timeline : Timeline Float) (start raster : Raster Float) (trace : Trace Float)
      (recording : Recording Float),
      Timeline.compile ⟨"black", "black"⟩ layeredProgram = .ok timeline ∧
      Raster.ofSize? 3 2 Rgba.white (Affine.shift 1 1) = some start ∧
      (timeline.render (.ok 5.5) .forward false none) start = (.ok trace, raster) ∧
      (timeline.render (.ok 5.5) .forward false none) (Recording.start (Affine.shift 1 1)) =
        (.ok trace, recording) ∧
      ∃ replayed : Raster Float,
        recording.replay (Raster.start 3 2 Rgba.white Affine.identity) = (.ok (), replayed) ∧
        replayed.canvas = raster.canvas := by
  have hcheck : ((Timeline.compile ⟨"black", "black"⟩ layeredProgram).toOption.bind
      fun timeline =>
        (Raster.ofSize? (α := Float) 3 2 Rgba.white (Affine.shift 1 1)).map fun start =>
          ((timeline.render (.ok 5.5) .forward false none) start).1.isOk) = some true := by
    decide +kernel
  obtain ⟨timeline, hcompile, hcheck⟩ := Option.bind_eq_some_iff.mp hcheck
  obtain ⟨start, hstart, hcheck⟩ := Option.map_eq_some_iff.mp hcheck
  obtain ⟨trace, htrace⟩ := isOk_iff.mp hcheck
  obtain ⟨recording, hrecording, hreplayed⟩ :=
    timeline.render_replayed (.ok 5.5) .forward false hstart (Prod.ext htrace rfl)
  exact ⟨timeline, start, _, trace, recording, toOption_eq_some.mp hcompile, hstart,
    Prod.ext htrace rfl, hrecording, hreplayed rfl⟩

end CanvasScript
