import CanvasScript.Proofs.Color.Fading
import CanvasScript.Proofs.Command.Fits
import CanvasScript.Proofs.Timeline.Colored
import CanvasScript.Proofs.Timeline.Kept

/-!
# Colours that reach a surface

A colour comes from a style (`parse_color`), is carried from step to step, is faded (`fade_alpha`),
and is drawn with (`draw_step`). All the way its channels are in `0 … 255`.

* `Recording.strayCalls` are the calls of a recording in other colours, and `unmovedIn_strayCalls`:
  a drawing in colours of this range adds none.
* `Timeline.drawsIn_compile`: **the steps of a timeline draw in colours of this range**, however far
  they have faded in.
* `Timeline.run_render_inRange`: so does a rendering, with or without a marker.
* `colors_inRange`: **every colour that reaches a surface is one of this range**, from the style on.
-/

namespace CanvasScript

/-! ## Recordings -/

namespace Recording

variable {α : Type}

/-- The calls whose colour has a channel out of range. -/
def strayCalls (recording : Recording α) : List (DrawCall α) :=
  recording.calls.filter fun call => !decide call.color.InRange

theorem strayCalls_eq_nil {recording : Recording α} :
    recording.strayCalls = [] ↔ ∀ call ∈ recording.calls, call.color.InRange := by
  unfold strayCalls
  rw [List.filter_eq_nil_iff]
  simp

/-- **A drawing in colours of the range adds no stray calls.** -/
theorem unmovedIn_strayCalls :
    Drawing.UnmovedIn Rgba.InRange (strayCalls : Recording α → List (DrawCall α)) where
  setTransform m recording := rfl
  paint shape width color hcolor recording := by
    show (recording.calls ++ [_]).filter _ = recording.calls.filter _
    rw [List.filter_append, List.filter_cons_of_neg (by simpa using hcolor), List.filter_nil,
      List.append_nil]
  framed hx recording := hx _

end Recording

/-! ## Steps -/

namespace Timeline

/-- **The steps of a timeline draw in colours of the range**, however far they have faded in. -/
theorem drawsIn_compile {defaults : PerPaint String} {commands : List (Command Float)}
    {timeline : Timeline Float} (h : compile defaults commands = .ok timeline) :
    ∀ step ∈ timeline.steps, step.DrawsIn Rgba.InRange := by
  intro step hstep paint t
  obtain ⟨steps, hsteps, h⟩ := bind_eq_ok.mp h
  cases h
  have hcolor := PerPaint.get_of_mapM (color_stepsFrom hsteps step hstep) paint
  exact (Rgba.inRange_ofStyle hcolor).fade t

/-- **A rendering records colours of the range**, whether it succeeds or fails. -/
theorem run_render_inRange {defaults : PerPaint String} {commands : List (Command Float)}
    {timeline : Timeline Float} (h : compile defaults commands = .ok timeline)
    (position : Reading Float) (direction : Direction) (reverses : Bool) (marker : Option String)
    {recording : Recording Float} (hcalls : ∀ call ∈ recording.calls, call.color.InRange) :
    ∀ call ∈ ((timeline.render position direction reverses
      (marker.map FrameMarker.draw)).run recording).2.calls, call.color.InRange := by
  have hmarker : ∀ mark ∈ marker.map (FrameMarker.draw (σ := Recording Float)),
      Keeps Recording.strayCalls mark := by
    intro mark hmark
    obtain ⟨style, -, rfl⟩ := Option.map_eq_some_iff.mp hmark
    exact Recording.unmovedIn_strayCalls.marker fun _ hcolor => Rgba.inRange_ofStyle hcolor
  have hkeeps := Recording.unmovedIn_strayCalls.render (drawsIn_compile h) hmarker position
    direction reverses recording
  rw [Recording.strayCalls_eq_nil.mpr hcalls] at hkeeps
  exact Recording.strayCalls_eq_nil.mp hkeeps

end Timeline

/-! ## From the style to the surface -/

/-- **Every colour that reaches a surface has its channels in `0 … 255`.** A style denotes such a
colour or none; a colour fades in steadily; and with default styles that denote colours, a decoded
program has a timeline, whose renderings record such colours only. -/
theorem colors_inRange :
    (∀ style : String,
      (∃ color, Rgba.ofStyle style = .ok color ∧ color.InRange ∧ Rgba.isStyle style = true) ∨
        ∃ error, Rgba.ofStyle style = .error error ∧ Rgba.isStyle style = false) ∧
    (∀ color : Rgba, 0 ≤ color.alpha → color.alpha ≤ 255 → color.Fades) ∧
    ∀ (policy : Policy) (instructions : List (Instruction Float)) (decoded : Decoded Float),
      Command.decodeAll policy instructions = .ok decoded →
      ∀ defaults : PerPaint String, (∀ paint, Rgba.isStyle (defaults.get paint) = true) →
      ∃ timeline, Timeline.compile defaults decoded.commands = .ok timeline ∧
        ∀ (position : Reading Float) (direction : Direction) (reverses : Bool)
          (marker : Option String) (recording : Recording Float),
          (∀ call ∈ recording.calls, call.color.InRange) →
          ∀ call ∈ ((timeline.render position direction reverses
            (marker.map FrameMarker.draw)).run recording).2.calls, call.color.InRange := by
  refine ⟨fun style => ?_, fun color => Rgba.fades, ?_⟩
  · unfold Rgba.isStyle
    cases hstyle : Rgba.ofStyle style with
    | ok color => exact .inl ⟨color, rfl, Rgba.inRange_ofStyle hstyle, rfl⟩
    | error error => exact .inr ⟨error, rfl, rfl⟩
  · intro policy instructions decoded hdecode defaults hdefaults
    obtain ⟨timeline, hcompile, -⟩ := Timeline.exists_compile hdefaults
      fun command hmem => (Command.fits_of_decodeAll hdecode command hmem).colors
    exact ⟨timeline, hcompile, fun position direction reverses marker _ =>
      Timeline.run_render_inRange hcompile position direction reverses marker⟩

/-- A style with channels out of range, a figure in it, and one that is drawn half transparent. -/
def garishProgram : List (Instruction Float) := [
  .row [.text "fillStyle", .text "rgba(300, 0, 0, 7)"],
  .row [.text "fillRect", .int 0, .int 0, .int 1, .int 1],
  .row [.text "fillRect", .int 1, .int 1, .int 1, .int 1, .text "#00ff0080"]]

/-- Halfway through the last figure its colour has faded to half of that. -/
theorem colors_inRange_garish :
    ∃ decoded timeline, Command.decodeAll .skip garishProgram = .ok decoded ∧
      Timeline.compile ⟨"black", "#888"⟩ decoded.commands = .ok timeline ∧
      let calls := ((timeline.render (.ok 2.5) .forward false none).run
        (Recording.start Affine.identity)).2.calls
      calls.map (·.color) = [⟨255, 0, 0, 255⟩, ⟨0, 255, 0, 64⟩] ∧
        ∀ call ∈ calls, call.color.InRange := by
  have hcolors : (Command.decodeAll .skip garishProgram).toOption.bind (fun decoded =>
      (Timeline.compile ⟨"black", "#888"⟩ decoded.commands).toOption.map fun timeline =>
        ((timeline.render (.ok 2.5) .forward false none).run
          (Recording.start Affine.identity)).2.calls.map (·.color)) =
      some [⟨255, 0, 0, 255⟩, ⟨0, 255, 0, 64⟩] := by decide +kernel
  obtain ⟨decoded, hdecode, hcolors⟩ := Option.bind_eq_some_iff.mp hcolors
  obtain ⟨timeline, hcompile, hcolors⟩ := Option.map_eq_some_iff.mp hcolors
  have hdecode := toOption_eq_some.mp hdecode
  have hcompile := toOption_eq_some.mp hcompile
  obtain ⟨timeline', hcompile', hrange⟩ :=
    colors_inRange.2.2 .skip garishProgram decoded hdecode _ isStyle_defaults
  obtain rfl : timeline = timeline' := Except.ok.inj (hcompile.symm.trans hcompile')
  exact ⟨decoded, timeline, hdecode, hcompile, hcolors, hrange (.ok 2.5) .forward false none
    (Recording.start Affine.identity) fun call hmem => by cases hmem⟩

end CanvasScript
