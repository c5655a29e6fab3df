import CanvasScript.Proofs.Timeline.Standing

/-!
# Scrubbing forward

Between two steps, forward rendering (`_render_nested`) shows what it shows at the step before, and
the part of the one drawing that has begun. So as the position goes on, calls are only added, and
the last one darkens. The marker stands in the frame that the step in progress has reached.

* `Timeline.callsAt_eq`: **the calls at a position are those of the steps before it**, in the frames
  before them and faded as far as they have come. So the calls of one more step are added from each
  step to the next (`Timeline.callsAt_inside`), and none is taken back (`Timeline.callsAt_prefix`).
* `Timeline.run_render_marked`: **a marker is drawn once, behind all calls**, in a frame of its own:
  the one of the step that the position is inside of, or at the end of (`Timeline.lastBegun_eq`).
* `Timeline.render_scrubs`: **so forward rendering scrubs**, for every program.

Out of scope: the rounding of doubles.
-/

namespace CanvasScript

open Scalar
open scoped Exact

variable {K : Type} [Field K] [LinearOrder K] [FloorRing K] [ScalarFunctions K]

/-- The calls of a step that has come the part `t` of its way: a drawing fades in, in the frame
before it. -/
def Step.fadedCalls (step : Step K) (base : Affine K) (t : K) : List (DrawCall K) :=
  match step.command with
  | .draw paint figure _ =>
    let color := step.color.get paint
    [⟨.figure paint figure, { color with alpha := Exact.halfEven (color.alpha * t) },
      base * step.previous⟩]
  | _ => []

namespace Timeline

/-- The calls that forward rendering records at a position. -/
def callsAt (timeline : Timeline K) (base : Affine K) (p : K) : List (DrawCall K) :=
  ((timeline.render (.ok p) .forward false none).run (Recording.start base)).2.calls

/-- Forward rendering at a position draws a marker once, behind all calls, in a frame of its own
with a transform. -/
def MarksIn (timeline : Timeline K) (base : Affine K) (p : K) (frame : Affine K) : Prop :=
  ∀ (reverses : Bool) (mark : Drawing (Recording K) Unit), ∃ trace,
    timeline.trace (.ok p) .forward reverses = .ok trace ∧
    let marking : Rendering (Recording K) (Trace K) := do
      mark.rendering
      return trace
    let (result, marked) := marking.run ⟨⟨base * frame, [base]⟩, timeline.callsAt base p⟩
    (timeline.render (.ok p) .forward reverses (some mark)).run (Recording.start base) =
      (result, marked.inFrame marked.frame.restore)

/-- Forward rendering of a timeline scrubs: from step to step the calls of one more step are added,
which fades in, and a marker moves along with the frames. -/
structure Scrubs (timeline : Timeline K) (base : Affine K) : Prop where
  records : ∀ (p : K) (reverses : Bool), ∃ trace,
    (timeline.render (.ok p) .forward reverses none).run (Recording.start base) =
      (.ok trace, { Recording.start base with calls := timeline.callsAt base p })
  /-- At the start nothing is drawn. -/
  start : timeline.callsAt base 0 = []
  /-- Inside a step and at its end, its part follows the calls of the position before it. -/
  inside : ∀ (k : Nat) (hk : k < timeline.steps.length) (p : K), k < p → p ≤ k + 1 →
    timeline.callsAt base p =
      timeline.callsAt base k ++ timeline.steps[k].fadedCalls base (p - k)
  /-- At the start the marker stands in the base frame. -/
  marked_start : timeline.MarksIn base 0 Affine.identity
  /-- Inside a step and at its end the marker stands in the frame that the step has reached. -/
  marked : ∀ (i : Nat) (hi : i < timeline.steps.length) (p : K), i < p → p ≤ i + 1 →
    timeline.MarksIn base p (timeline.steps[i].progress (p - i)).matrix
  /-- Further on there are the same calls with other alphas, and more of them. -/
  grows : ∀ p q : K, p ≤ q →
    (timeline.callsAt base p).map (fun call => (call.shape, call.transform)) <+:
      (timeline.callsAt base q).map fun call => (call.shape, call.transform)

end Timeline

/-! ## Calls -/

namespace Step

/-- The calls of a step that has come some of its way, in the frame that it has reached. -/
theorem callsIn_progress (step : Step K) (base : Affine K) (t : K) :
    step.callsIn t (base * (step.progress t).matrix) = step.fadedCalls base (unitClamp t) := by
  unfold callsIn fadedCalls progress
  cases step.command with
  | draw paint figure color => rfl
  | _ => rfl

/-- Its shapes and their transforms are the same all the way. -/
theorem map_fadedCalls (step : Step K) (base : Affine K) (s t : K) :
    (step.fadedCalls base s).map (fun call => (call.shape, call.transform)) =
      (step.fadedCalls base t).map fun call => (call.shape, call.transform) := by
  unfold fadedCalls
  cases step.command with
  | draw paint figure color => rfl
  | _ => rfl

end Step

/-! ## Renderings -/

namespace Timeline

variable {timeline : Timeline K}

/-- **Forward rendering records the calls of the steps that have begun.** -/
theorem exists_run_forward (timeline : Timeline K) (base : Affine K) (p : K) (reverses : Bool) :
    ∃ trace, (timeline.render (.ok p) .forward reverses none).run (Recording.start base) =
      (.ok trace, { Recording.start base with
        calls := (begun timeline.steps (clampPosition p timeline.length)).flatMap fun entry =>
          entry.1.callsIn entry.2 (base * (entry.1.progress entry.2).matrix) }) :=
  run_render timeline.allowed_forward (effectivePosition_forward p _ reverses)
    (run_draw (run_drawForward _ _ _))

theorem callsAt_eq_begun (timeline : Timeline K) (base : Affine K) (p : K) :
    timeline.callsAt base p =
      (begun timeline.steps (clampPosition p timeline.length)).flatMap fun entry =>
        entry.1.callsIn entry.2 (base * (entry.1.progress entry.2).matrix) := by
  obtain ⟨trace, hrender⟩ := exists_run_forward timeline base p false
  unfold callsAt
  rw [hrender]

/-- Without steps nothing is drawn, not even a marker. -/
theorem render_empty (hempty : timeline.steps = []) {σ : Type} [Surface K σ]
    (position : Reading K) (reverses : Bool) (marker : Option (Drawing σ Unit)) :
    timeline.render position .forward reverses marker = pure (Trace.empty .forward) := by
  have htrace : timeline.trace position .forward reverses = .ok (Trace.empty .forward) := by
    unfold trace
    rw [timeline.allowed_forward, hempty]
    rfl
  have hdraw : timeline.draw (Trace.empty .forward) marker = pure () := by
    unfold draw
    rw [hempty]
    rfl
  rw [render_of_trace htrace, hdraw]
  rfl

/-- Forward drawing draws a marker behind all calls, in a frame of its own, which is left again. -/
theorem run_draw_marked (hsteps : timeline.steps ≠ []) {p : K} {step : Step K} {t : K}
    (hlast : lastBegun timeline.steps (clampPosition p timeline.length) = some (step, t))
    (base : Affine K) (mark : Drawing (Recording K) Unit) :
    (timeline.draw (Trace.ofSteps timeline.steps (clampPosition p timeline.length) .forward)
        (some mark)) (Recording.start base) =
      let (result, marked) :=
        mark ⟨⟨base * (step.progress t).matrix, [base]⟩, timeline.callsAt base p⟩
      (result, marked.inFrame marked.frame.restore) := by
  have hempty : timeline.steps.isEmpty = false := by simpa using hsteps
  have hcalls : ((begun timeline.steps (clampPosition p timeline.length)).forM
      fun entry => entry.1.within entry.2 (entry.1.draw entry.2)) (Recording.start base) =
        (.ok (), { Recording.start base with calls := timeline.callsAt base p }) := by
    rw [callsAt_eq_begun]
    exact run_begun _ _ _
  have hmark : markLast timeline.steps (clampPosition p timeline.length) (some mark) =
      step.within t mark := by
    unfold markLast
    rw [hlast]
  unfold draw
  rw [hempty]
  refine (run_bind_ok hcalls).trans ?_
  show (markLast timeline.steps (clampPosition p timeline.length) (some mark)) _ = _
  rw [hmark]
  rfl

/-- **So a rendering draws the marker once, behind all calls**, in the frame of the last step that
has begun. -/
theorem run_render_marked (hsteps : timeline.steps ≠ []) {p : K} {step : Step K} {t : K}
    (hlast : lastBegun timeline.steps (clampPosition p timeline.length) = some (step, t))
    (base : Affine K) : timeline.MarksIn base p (step.progress t).matrix := by
  intro reverses mark
  obtain ⟨trace, htrace, hcases⟩ := exists_trace timeline.allowed_forward p reverses
  refine ⟨trace, htrace, ?_⟩
  rcases hcases with ⟨-, hempty⟩ | rfl
  · exact absurd hempty hsteps
  rw [effectivePosition_forward] at htrace ⊢
  dsimp only
  rw [render_of_trace htrace, run_rendering_return, run_rendering_return,
    run_draw_marked hsteps hlast]
  rfl

variable [IsStrictOrderedRing K]

section

variable (hindices : timeline.steps.map (·.index) = List.range' 0 timeline.length)

include hindices

/-- **The calls at a position are those of the steps before it**, faded as far as they have come. -/
theorem callsAt_eq (base : Affine K) (p : K) :
    timeline.callsAt base p =
      (timeline.steps.take ⌈clampPosition p timeline.length⌉₊).flatMap fun step =>
        step.fadedCalls base (Trace.amount step.index (clampPosition p timeline.length)) := by
  rw [callsAt_eq_begun, begun_eq_take hindices, List.flatMap_map]
  refine List.flatMap_congr fun step _ => ?_
  rw [step.callsIn_progress, Exact.unitClamp_eq, max_eq_right (Trace.amount_nonneg _ _),
    min_eq_right (Trace.amount_le_one _ _)]

/-- At the start nothing is drawn. -/
theorem callsAt_zero (base : Affine K) : timeline.callsAt base 0 = [] := by
  rw [callsAt_eq hindices, clampPosition_of_mem le_rfl (Nat.cast_nonneg _), Nat.ceil_zero]
  rfl

/-- **Inside a step and at its end, its part follows the calls of the position before it.** -/
theorem callsAt_inside (base : Affine K) {k : Nat} (hk : k < timeline.steps.length) {p : K}
    (hlow : k < p) (hhigh : p ≤ k + 1) : timeline.callsAt base p =
      timeline.callsAt base k ++ timeline.steps[k].fadedCalls base (p - k) := by
  have hlength : (k : K) + 1 ≤ timeline.length := by exact_mod_cast hk
  have hnonneg : (0 : K) ≤ k := Nat.cast_nonneg k
  -- both at the position and before its step, all steps further before are done
  have hdone {q : K} (hq : k ≤ q) {step : Step K} (hstep : step ∈ timeline.steps.take k) :
      Trace.amount step.index q = 1 := by
    have hindex : (step.index : K) + 1 ≤ k := by
      exact_mod_cast index_lt_of_mem_take hindices hstep
    exact Trace.amount_of_done (hindex.trans hq)
  rw [callsAt_eq hindices, callsAt_eq hindices,
    clampPosition_of_mem (hnonneg.trans hlow.le) (hhigh.trans hlength),
    clampPosition_of_mem hnonneg (hlow.le.trans (hhigh.trans hlength)),
    ceil_eq_of_mem hlow hhigh, Nat.ceil_natCast, List.take_succ_eq_append_getElem hk,
    List.flatMap_append, List.flatMap_singleton, index_getElem hindices hk,
    Trace.amount_of_mem hlow.le hhigh]
  refine congrArg (· ++ _) (List.flatMap_congr fun step hstep => ?_)
  rw [hdone hlow.le hstep, hdone le_rfl hstep]

/-- **Further on there are the same calls with other alphas, and more of them.** -/
theorem callsAt_prefix (base : Affine K) {p q : K} (hpq : p ≤ q) :
    (timeline.callsAt base p).map (fun call => (call.shape, call.transform)) <+:
      (timeline.callsAt base q).map fun call => (call.shape, call.transform) := by
  have houtline (q : K) : (timeline.callsAt base q).map (fun call => (call.shape, call.transform)) =
      (timeline.steps.take ⌈clampPosition q timeline.length⌉₊).flatMap fun step =>
        (step.fadedCalls base 0).map fun call => (call.shape, call.transform) := by
    rw [callsAt_eq hindices, List.map_flatMap]
    exact List.flatMap_congr fun step _ => step.map_fadedCalls base _ _
  rw [houtline, houtline]
  exact (List.take_prefix_take_left (Nat.ceil_mono (clampPosition_mono hpq _))).flatMap _

/-- **The marker stands in the frame of the step that the position is inside of**, or at the end of.
-/
theorem lastBegun_eq {i : Nat} (hi : i < timeline.steps.length) {p : K} (hlow : i < p)
    (hhigh : p ≤ i + 1) :
    lastBegun timeline.steps p = some (timeline.steps[i], p - i) := by
  unfold lastBegun
  rw [begun_eq_take hindices, ceil_eq_of_mem hlow hhigh, List.take_succ_eq_append_getElem hi,
    List.map_append, List.map_singleton, List.getLast?_concat, index_getElem hindices hi,
    Trace.amount_of_mem hlow.le hhigh]

/-- At the start it stands in the frame of the first step, of which nothing is done. -/
theorem lastBegun_zero {step : Step K} (hstep : timeline.steps.head? = some step) :
    lastBegun timeline.steps (0 : K) = some (step, 0) := by
  unfold lastBegun
  rw [begun_eq_take hindices, Nat.ceil_zero, hstep]
  exact congrArg (fun t => some (step, t)) Exact.zero_eq

/-- **Inside a step and at its end a marker stands in the frame that the step has reached.** -/
theorem marksIn_of_mem {i : Nat} (hi : i < timeline.steps.length) {p : K} (hlow : i < p)
    (hhigh : p ≤ i + 1) (base : Affine K) :
    timeline.MarksIn base p (timeline.steps[i].progress (p - i)).matrix := by
  have hlength : (i : K) + 1 ≤ timeline.length := by exact_mod_cast hi
  have hclamp : clampPosition p timeline.length = p :=
    clampPosition_of_mem ((Nat.cast_nonneg i).trans hlow.le) (hhigh.trans hlength)
  exact run_render_marked (List.ne_nil_of_length_pos (Nat.zero_lt_of_lt hi))
    (hclamp.symm ▸ lastBegun_eq hindices hi hlow hhigh) base

end

/-- At the start a marker stands in the frame before the first step. -/
theorem marksIn_zero (hsin : sin (0 : K) = 0) (hcos : cos (0 : K) = 1)
    {defaults : PerPaint String} {commands : List (Command K)}
    (hcompile : Timeline.compile defaults commands = .ok timeline) (hsteps : timeline.steps ≠ [])
    (base : Affine K) : timeline.MarksIn base 0 Affine.identity := by
  have hclamp : clampPosition (0 : K) timeline.length = 0 :=
    clampPosition_of_mem le_rfl (Nat.cast_nonneg _)
  have hhead := List.head?_eq_some_head hsteps
  have hlast := lastBegun_zero (indices_compile hcompile) hhead
  have hframe : ((timeline.steps.head hsteps).progress 0).matrix = Affine.identity :=
    (Step.progress_zero hsin hcos _).trans (previous_of_head hcompile hhead)
  rw [← hframe]
  exact run_render_marked hsteps (hclamp.symm ▸ hlast) base

/-- **Forward rendering scrubs**, for every program; without steps a marker is never drawn. -/
theorem render_scrubs (hsin : sin (0 : K) = 0) (hcos : cos (0 : K) = 1)
    {defaults : PerPaint String} {commands : List (Command K)}
    (hcompile : Timeline.compile defaults commands = .ok timeline) :
    (timeline.steps ≠ [] → ∀ base, timeline.Scrubs base) ∧
    (timeline.steps = [] → ∀ {σ : Type} [Surface K σ] (position : Reading K) (reverses : Bool)
      (marker : Option (Drawing σ Unit)),
        timeline.render position .forward reverses marker = pure (Trace.empty .forward)) := by
  have hindices := indices_compile hcompile
  refine ⟨fun hsteps base => ?_, fun hempty σ _ position reverses marker =>
    render_empty hempty position reverses marker⟩
  exact {
    records := fun p reverses => by
      obtain ⟨trace, hrender⟩ := exists_run_forward timeline base p reverses
      exact ⟨trace, callsAt_eq_begun timeline base p ▸ hrender⟩
    start := callsAt_zero hindices base
    inside := fun k hk p hlow hhigh => callsAt_inside hindices base hk hlow hhigh
    marked_start := marksIn_zero hsin hcos hcompile hsteps base
    marked := fun i hi p hlow hhigh => marksIn_of_mem hindices hi hlow hhigh base
    grows := fun p q hpq => callsAt_prefix hindices base hpq }

end Timeline

/-- Scrubbing over a save, its restore and the drawings inside and behind them. -/
theorem render_scrubs_nested :
    sin (0 : Real) = 0 ∧ cos (0 : Real) = 1 ∧ ∃ timeline,
      Timeline.compile ⟨"black", "#888"⟩ nestedProgram = .ok timeline ∧
      timeline.steps.map (·.command) = nestedProgram ∧ timeline.steps ≠ [] ∧
      ∀ base, timeline.Scrubs base := by
  obtain ⟨timeline, hcompile, hcommands⟩ := exists_compile_nested
  have hsin : sin (0 : Real) = 0 := Real.sin_zero
  have hcos : cos (0 : Real) = 1 := Real.cos_zero
  have hsteps : timeline.steps ≠ [] := by
    intro hempty
    rw [hempty] at hcommands
    cases hcommands
  exact ⟨hsin, hcos, timeline, hcompile, hcommands, hsteps,
    (Timeline.render_scrubs hsin hcos hcompile).1 hsteps⟩

end CanvasScript
