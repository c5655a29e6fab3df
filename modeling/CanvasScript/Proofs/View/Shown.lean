import CanvasScript.Proofs.Binary64.Integer
import CanvasScript.Proofs.Playback.Position
import CanvasScript.Proofs.View.Redraw

/-!
# What a view shows

A view that listens to a scheduler (`make_scheduler`) shows the position of that scheduler. Some
drawings fail: then the scheduler keeps the value before, and the view the trace before.

* `View.shownAt` is the position that a view shows for a value.
* `View.Shows` is what holds of a view beside a scheduler and the values that were drawn.

Results:
* `View.position_of_draw`: a drawing that succeeds is remembered with the position of its value.
* `View.follows_shows`: a change of the activity and a presented value keep view and scheduler
  together, also where the drawing fails.
* `View.runAll_shown`: **so every run keeps them together**.
-/

namespace CanvasScript

open Scalar

variable {α σ : Type}

section

variable [Scalar α]

/-- A line without steps has one position. -/
theorem effectivePosition_zero (h : CountsTo α 0) (v : α) (reversed : Bool) :
    effectivePosition v 0 reversed = zero := by
  have hclamp : clampPosition v 0 = zero := by
    show greatest zero (least v zero) = zero
    unfold greatest
    split
    · rename_i hlt
      unfold least at hlt ⊢
      split
      · rfl
      · rename_i hv
        rw [if_neg hv] at hlt
        exact absurd hlt hv
    · rfl
  cases reversed with
  | false => exact hclamp
  | true =>
    show ofInt 0 - clampPosition v 0 = zero
    rw [hclamp]
    exact h.sub le_rfl le_rfl le_rfl

/-- The trace of a timeline stands at the position for the value that is asked for. -/
theorem Timeline.position_of_trace (h : CountsTo α 0) {timeline : Timeline α} {v : α}
    {direction : Direction} {reverses : Bool} {trace : Trace α}
    (htrace : timeline.trace (.ok v) direction reverses = .ok trace) :
    trace.position =
      effectivePosition v timeline.length (reverses && direction = .backward) := by
  obtain ⟨direction', hallowed, hrest⟩ := bind_eq_ok.mp htrace
  obtain rfl := eq_of_allowed (mapError_eq_ok.mp hallowed)
  split at hrest
  · rename_i hempty
    cases hrest
    have hlength : timeline.length = 0 := by
      unfold length
      rw [List.isEmpty_iff.mp hempty]
      rfl
    rw [hlength, effectivePosition_zero h]
    rfl
  · cases hrest
    rfl

variable [Surface α σ] {s s' : σ} {trace : Trace α}

/-- A rendering that succeeds results in the trace of its timeline. -/
theorem Timeline.trace_of_render {timeline : Timeline α} {position : Reading α}
    {direction : Direction} {reverses : Bool} {marker : Option (Drawing σ Unit)}
    (h : (timeline.render position direction reverses marker) s = (.ok trace, s')) :
    timeline.trace position direction reverses = .ok trace := by
  obtain ⟨shown, _, htrace, hrest⟩ := run_bind_eq_ok.mp h
  obtain ⟨_, _, -, hresult⟩ := run_bind_eq_ok.mp hrest
  cases hresult
  exact congrArg Prod.fst htrace

end

namespace View

section

variable [Scalar α]

/-- The position that a view shows for a value. A view of the final result goes forward. -/
def shownAt (view : View α σ) (v : α) : α :=
  let (direction, reverses) :=
    if view.showsFinal then (.forward, false) else (view.direction, view.settings.reverses)
  effectivePosition v view.length (reverses && direction = .backward)

variable [Surface α σ]

/-- A picture results in the trace of its timeline. -/
theorem trace_of_picture {timeline : Timeline α} {settings : Settings α} {showsFinal : Bool}
    {direction : Direction} {position : Reading α} {s : σ} {trace : Trace α}
    (h : ((picture timeline settings showsFinal direction position) s).1 = .ok trace) :
    timeline.trace position (if showsFinal then .forward else direction)
      (settings.reverses && !showsFinal) = .ok trace := by
  change ((centered timeline settings showsFinal direction position) _).1 = _ at h
  obtain ⟨_, _, -, hframe⟩ := run_bind_eq_ok.mp (Prod.ext h rfl)
  obtain ⟨_, _, -, hscene⟩ := run_bind_eq_ok.mp hframe
  unfold scene at hscene
  dsimp only at hscene
  split at hscene
  · obtain ⟨_, _, -, hrender⟩ := run_bind_eq_ok.mp hscene
    exact Timeline.trace_of_render hrender
  · exact Timeline.trace_of_render hscene

/-- **A drawing that succeeds is remembered with the position of its value.** -/
theorem position_of_draw (hcounts : CountsTo α 0) {view : View α σ} {v : α} {trace : Trace α}
    (h : ((View.draw (.ok v)) view).1 = .ok trace) :
    ((View.draw (.ok v)) view).2.lastTrace = trace ∧ trace.position = view.shownAt v := by
  rw [run_draw] at h ⊢
  dsimp only at h ⊢
  rw [h]
  refine ⟨rfl, (Timeline.position_of_trace hcounts (trace_of_picture h)).trans ?_⟩
  unfold shownAt
  cases view.showsFinal with
  | false => rw [Bool.not_false, Bool.and_true]; rfl
  | true => rw [Bool.not_true, Bool.and_false]; rfl

/-- A drawing keeps what a view shows for a value, whether it succeeds or fails. -/
theorem shownAt_draw (view : View α σ) (position : Reading α) :
    ((View.draw position) view).2.shownAt = view.shownAt := by
  rw [run_draw]
  rfl

/-- A drawing that fails leaves the trace of the last one that did not. -/
theorem lastTrace_of_draw_error {view : View α σ} {position : Reading α} {error : RenderError}
    (h : ((View.draw position) view).1 = .error error) :
    ((View.draw position) view).2.lastTrace = view.lastTrace := by
  rw [run_draw] at h ⊢
  dsimp only at h ⊢
  rw [h]
  rfl

/-- A view shows what the first one shows, and remembers the position of the scheduler beside it, if
anything was drawn at all. -/
structure Shows (first : View α σ) (s : Scheduler α) (view : View α σ) (drawn : List α) : Prop where
  shownAt : view.shownAt = first.shownAt
  last : drawn = [] ∧ view.lastTrace = first.lastTrace ∨
    drawn ≠ [] ∧ view.lastTrace.position = first.shownAt s.value

/-- **What keeps view and scheduler together**: a value that is drawn becomes the value of the
scheduler, and after a drawing that fails both stay where they were. -/
theorem follows_shows (hcounts : CountsTo α 0) (first : View α σ) :
    Scheduler.Follows (fun s view logged => logged.1 = view ∧ Shows first s view logged.2)
      View.listener (Listener.logged View.listener) where
  activity _ hR := ⟨hR.1, hR.2.shownAt, hR.2.last⟩
  present v := by
    rintro s _ ⟨view, drawn⟩ ⟨rfl, hshows⟩
    cases hquantize : s.quantize v with
    | error fault =>
      exact ⟨_, s, _, _, Scheduler.run_present_error hquantize,
        Scheduler.run_present_error hquantize, rfl, hshows⟩
    | ok w =>
      have hkept := (shownAt_draw view (.ok w)).trans hshows.shownAt
      rcases hdraw : (View.draw (.ok w)) view with ⟨error | trace, view'⟩
      · have hlistener : (View.listener w) view = (.error error, view') := run_bind_error hdraw
        have htrace := lastTrace_of_draw_error (congrArg Prod.fst hdraw)
        rw [hdraw] at hkept htrace
        refine ⟨_, s, _, _, Scheduler.run_present_refused hquantize hlistener,
          Scheduler.run_present_refused hquantize (Listener.run_logged_error hlistener drawn),
          rfl, hkept, ?_⟩
        rw [htrace]
        exact hshows.last
      · have hlistener : (View.listener w) view = (.ok (), view') := run_bind_ok hdraw
        have hposition := position_of_draw hcounts (congrArg Prod.fst hdraw)
        rw [hdraw] at hkept hposition
        refine ⟨_, _, _, _, Scheduler.run_present_accepted hquantize hlistener,
          Scheduler.run_present_accepted hquantize (Listener.run_logged_ok hlistener drawn),
          rfl, hkept, .inr ⟨by simp, ?_⟩⟩
        rw [hposition.1, hposition.2, hshows.shownAt]

end

section

variable [Written α] [Surface α σ]

/-- **A view shows the position of the scheduler that it listens to**, its own or any other, after
every run. If no value was drawn, it remembers the trace from before; otherwise the last trace
stands at the position for the value of the scheduler, whichever drawings failed. -/
theorem runAll_shown (hcounts : CountsTo α 0) (view : View α σ) (s : Scheduler α)
    (operations : List (Scheduler.Operation α)) :
    ∃ s' view' drawn,
      Scheduler.runAll View.listener operations (s, view) = (s', view') ∧
      Scheduler.runAll (Listener.logged View.listener) operations (s, (view, [])) =
        (s', (view', drawn)) ∧
      (drawn = [] ∧ view'.lastTrace = view.lastTrace ∨
        drawn ≠ [] ∧ view'.lastTrace.position = view.shownAt s'.value) := by
  obtain ⟨s', _, ⟨view', drawn⟩, hrun, hlogged, rfl, hshows⟩ :=
    Scheduler.runAll_alike (follows_shows hcounts view) operations (n := (view, []))
      ⟨rfl, rfl, .inl ⟨rfl, rfl⟩⟩
  exact ⟨s', view', drawn, hrun, hlogged, hshows.last⟩

end

/-- To the end, where a figure cannot be drawn, to the second step, and to the end again. -/
def endsRun : List (Scheduler.Operation Float) := [.last, .setValue (.ok 1), .last]

/-- A view that runs backward from right to left. Both drawings of the end fail. -/
theorem runAll_shown_ends :
    ∃ (timeline : Timeline Float) (view : View Float (Raster Float)) (s : Scheduler Float),
      Timeline.compile ⟨"black", "black"⟩ farProgram = .ok timeline ∧
      ofDirection timeline { smallSettings with reverses := true }
        (Raster.start 3 2 Rgba.white Affine.identity) .backward false = .ok view ∧
      view.scheduler = .ok s ∧ CountsTo Float 0 ∧
      ∃ s' view' drawn,
        Scheduler.runAll View.listener endsRun (s, view) = (s', view') ∧
        Scheduler.runAll (Listener.logged View.listener) endsRun (s, (view, [])) =
          (s', (view', drawn)) ∧
        (drawn = [] ∧ view'.lastTrace = view.lastTrace ∨
          drawn ≠ [] ∧ view'.lastTrace.position = view.shownAt s'.value) ∧
        s'.value = 1 ∧ view'.lastTrace.position = 2 := by
  have hcheck : ((Timeline.compile ⟨"black", "black"⟩ farProgram).toOption.bind fun timeline =>
      (ofDirection timeline { smallSettings with reverses := true }
          (Raster.start 3 2 Rgba.white Affine.identity) .backward false).toOption.bind
        fun view : View Float (Raster Float) =>
          view.scheduler.toOption.map fun s =>
            let run := Scheduler.runAll View.listener endsRun (s, view)
            (run.1.value, run.2.lastTrace.position)) = some (1, 2) := by
    decide +kernel
  obtain ⟨timeline, hcompile, hcheck⟩ := Option.bind_eq_some_iff.mp hcheck
  obtain ⟨view, hview, hcheck⟩ := Option.bind_eq_some_iff.mp hcheck
  obtain ⟨s, hscheduler, hcheck⟩ := Option.map_eq_some_iff.mp hcheck
  have hcounts : CountsTo Float 0 := Binary64.countsTo.mono (by decide)
  obtain ⟨s', view', drawn, hrun, hlogged, hshown⟩ := runAll_shown hcounts view s endsRun
  rw [hrun] at hcheck
  exact ⟨timeline, view, s, toOption_eq_some.mp hcompile, toOption_eq_some.mp hview,
    toOption_eq_some.mp hscheduler, hcounts, s', view', drawn, hrun, hlogged, hshown,
    congrArg Prod.fst hcheck, congrArg Prod.snd hcheck⟩

end View

end CanvasScript
