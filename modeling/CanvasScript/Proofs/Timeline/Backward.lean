import CanvasScript.Proofs.Geometry
import CanvasScript.Proofs.Timeline.Amount
import CanvasScript.Proofs.Timeline.Colored
import CanvasScript.Proofs.Timeline.Forward
import Mathlib.Analysis.SpecialFunctions.Trigonometric.Basic

/-!
# Backward rendering

Backward, the steps that are left share one frame (`_render_flat`), which each of them moves on.
Without rounding, and without saves and restores, that frame is the one that the steps have going
forward, seen from the frame before the first step that is left.

* `Chained`: each step starts in the frame in which the one before it ends, and ends in that frame
  moved by the whole step. `chained_stepsFrom`: **the steps of a timeline are chained**.
* `run_drawLeft`: the steps that are left draw in the running product of their parts.
* `exists_travelled`: **that product leads from the frame before them to the frame of each step**.
* `render_backward`: backward rendering at a position draws the steps from there on.

Out of scope: the rounding of doubles, by which the running product comes off the frames of the
steps.
-/

namespace CanvasScript

open Scalar

variable {K : Type} [Field K] [LinearOrder K] [FloorRing K] [ScalarFunctions K]

/-- Each step starts in the frame in which the one before it ends, and ends in that frame moved by
the whole step. -/
def Chained (start : Affine K) : List (Step K) → Prop
  | [] => True
  | step :: rest =>
    step.previous = start ∧ step.matrix = start * step.partway one ∧ Chained step.matrix rest

/-- The calls of a step in its full colour, in a frame with a transform. -/
def Step.wholeCalls (step : Step K) (transform : Affine K) : List (DrawCall K) :=
  match step.command with
  | .draw paint figure _ => [⟨.figure paint figure, step.color.get paint, transform⟩]
  | _ => []

/-- The frame before the step of a place: the one in which the step before it ends. -/
def frameBefore (start : Affine K) (steps : List (Step K)) : Nat → Affine K
  | 0 => start
  | place + 1 => (steps[place]?.map (·.matrix)).getD start

/-- The calls of steps in one frame, which each of them moves on. -/
def movingCalls (frame : Affine K) : List (Step K) → List (DrawCall K)
  | [] => []
  | step :: rest =>
    step.wholeCalls (frame * step.partway one) ++ movingCalls (frame * step.partway one) rest

/-! ## Chains -/

/-- The frame after a command that neither saves nor restores. -/
theorem matrix_apply {step : Step K} (pen : Pen K) {command : Command K}
    (hcommand : step.command = command) (hstack : command.isStack = false) :
    (pen.apply command).matrix = pen.matrix * step.partway one := by
  unfold Step.partway
  rw [hcommand]
  cases command with
  | move motion =>
    show pen.matrix * motion.transform = pen.matrix * motion.partway (unitClamp one)
    rw [Exact.unitClamp_one, motion.partway_one]
  | save => cases hstack
  | restore => cases hstack
  | style _ _ | draw _ _ _ | invalid _ _ => exact (mul_one pen.matrix).symm

/-- **The steps of a timeline without saves and restores are chained.** -/
theorem chained_stepsFrom {defaults earlier : PerPaint String} {index : Nat} {pen : Pen K} :
    ∀ {commands : List (Command K)} {steps : List (Step K)},
      Timeline.stepsFrom defaults earlier index pen commands = .ok steps →
      (∀ command ∈ commands, command.isStack = false) → Chained pen.matrix steps := by
  intro commands
  induction commands generalizing earlier index pen with
  | nil =>
    intro steps h _
    cases h
    trivial
  | cons command rest ih =>
    intro steps h hstack
    obtain ⟨hcommand, hrest⟩ := List.forall_mem_cons.mp hstack
    obtain ⟨step, more, rfl, hstep, hmore⟩ := Timeline.stepsFrom_cons h
    have hmatrix := matrix_apply pen hstep.command_eq hcommand
    refine ⟨hstep.previous_eq, hstep.matrix_eq.trans hmatrix, ?_⟩
    rw [hstep.matrix_eq]
    exact ih hmore hrest

/-- A chain goes on from the frame before any of its steps. -/
theorem Chained.drop : ∀ {start : Affine K} {steps : List (Step K)}, Chained start steps →
    ∀ (k : Nat), k ≤ steps.length → Chained (frameBefore start steps k) (steps.drop k)
  | _, _, h, 0, _ => h
  | start, step :: rest, h, k + 1, hk => by
    have hk' : k ≤ rest.length := Nat.le_of_succ_le_succ hk
    have hframe : frameBefore start (step :: rest) (k + 1) = frameBefore step.matrix rest k := by
      cases k with
      | zero => rfl
      | succ k =>
        show (rest[k]?.map _).getD start = (rest[k]?.map _).getD step.matrix
        rw [List.getElem?_eq_getElem hk']
        rfl
    rw [hframe]
    exact h.2.2.drop k hk'

/-- **The running product leads from the frame before the steps to the frame of each.** -/
theorem exists_travelled : ∀ {start : Affine K} {steps : List (Step K)} (first : Nat),
    Chained start steps → steps.map (·.index) = List.range' first steps.length →
    ∃ travelled : Nat → Affine K,
      (∀ step ∈ steps, start * travelled step.index = step.matrix) ∧
      ∀ base, movingCalls base steps =
        steps.flatMap fun step => step.wholeCalls (base * travelled step.index)
  | _, [], _, _, _ => ⟨fun _ => 1, fun _ hmem => (nomatch hmem), fun _ => rfl⟩
  | start, step :: rest, first, ⟨_, hmatrix, hrest⟩, hindices => by
    obtain ⟨hhead, htail⟩ := List.cons.inj hindices
    have hindex : step.index = first := hhead
    obtain ⟨travelled, hto, hcalls⟩ := exists_travelled (first + 1) hrest htail
    -- the steps behind the first one have other indices
    have hother (later) (hmem : later ∈ rest) : later.index ≠ first := by
      have hrange : later.index ∈ List.range' (first + 1) rest.length :=
        htail ▸ List.mem_map_of_mem hmem
      have := (List.mem_range'_1.mp hrange).1
      omega
    obtain ⟨moved, hfirst, hlater⟩ : ∃ moved : Nat → Affine K, moved first = step.partway one ∧
        ∀ i, i ≠ first → moved i = step.partway one * travelled i :=
      ⟨fun i => if i = first then step.partway one else step.partway one * travelled i,
        if_pos rfl, fun i hi => if_neg hi⟩
    refine ⟨moved, fun later hmem => ?_, fun base => ?_⟩
    · rcases List.mem_cons.mp hmem with rfl | hmem
      · rw [hindex, hfirst, hmatrix]
      · rw [hlater _ (hother later hmem), ← mul_assoc, ← hmatrix, hto later hmem]
    · rw [movingCalls, hcalls, List.flatMap_cons, hindex, hfirst]
      refine congrArg _ (List.flatMap_congr fun later hmem => ?_)
      rw [hlater _ (hother later hmem), mul_assoc]

/-! ## Drawing -/

variable [IsStrictOrderedRing K]

/-- Without rounding, a step that is drawn to its end is drawn in its full colour. -/
theorem callsIn_one (step : Step K) (transform : Affine K) :
    step.callsIn one transform = step.wholeCalls transform := by
  have hfade (c : Rgba) : c.fade (one : K) = c := by
    have halpha : Rgba.fadedAlpha c.alpha (one : K) = .ok c.alpha := by
      show Except.ok (Exact.halfEven ((c.alpha : K) * unitClamp one)) = _
      rw [Exact.unitClamp_one, Exact.one_eq, mul_one, Exact.halfEven_intCast]
    unfold Rgba.fade Rgba.fade?
    rw [halpha]
    rfl
  unfold Step.callsIn Step.wholeCalls
  cases step.command with
  | draw paint figure color => simp only [hfade]
  | _ => rfl

/-- Backward, at an integer position a step is left as a whole or not at all. -/
theorem backwardAmount_natCast (step : Step K) (k : Nat) :
    step.backwardAmount (k : K) = if k ≤ step.index then (one : K) else zero := by
  rw [step.backwardAmount_eq]
  by_cases h : k ≤ step.index
  · have hle : (k : K) ≤ step.index := by exact_mod_cast h
    rw [if_pos h, Trace.amount_of_le hle, sub_zero, Exact.one_eq]
  · have hle : (step.index : K) + 1 ≤ k := by exact_mod_cast not_le.mp h
    rw [if_neg h, Trace.amount_of_done hle, sub_self, Exact.zero_eq]

/-- A step that is left moves the frame and draws in it. -/
theorem run_drawLeft_of_le {step : Step K} {k : Nat} (h : k ≤ step.index)
    (recording : Recording K) :
    (Timeline.drawLeft (k : K) step) recording =
      (.ok (), (recording.inFrame
        ⟨recording.frame.transform * step.partway one, recording.frame.saved⟩).append
          (step.wholeCalls (recording.frame.transform * step.partway one))) := by
  have hpos : (zero : K) < one := (Exact.countsTo K 1).zero_lt_one (le_refl 1)
  unfold Timeline.drawLeft
  rw [backwardAmount_natCast, if_pos h]
  show (if zero < one then _ else _ : Drawing (Recording K) Unit) recording = _
  rw [if_pos hpos, ← callsIn_one]
  exact (run_bind_ok (Step.run_enter _ _)).trans (step.run_draw one _)

/-- A step that is done draws nothing. -/
theorem run_drawLeft_of_lt {step : Step K} {k : Nat} (h : step.index < k)
    (recording : Recording K) :
    (Timeline.drawLeft (k : K) step) recording = (.ok (), recording) := by
  have hnot : ¬ (zero : K) < zero := lt_irrefl _
  unfold Timeline.drawLeft
  rw [backwardAmount_natCast, if_neg (not_le.mpr h)]
  show (if zero < zero then _ else _ : Drawing (Recording K) Unit) recording = _
  rw [if_neg hnot]
  rfl

/-- **The steps that are left draw in the running product of their parts.** -/
theorem run_drawLeft (k : Nat) : ∀ {steps : List (Step K)} (first : Nat) (recording : Recording K),
    steps.map (·.index) = List.range' first steps.length →
    ∃ transform, (steps.forM (Timeline.drawLeft (k : K))) recording =
      (.ok (), (recording.append
        (movingCalls recording.frame.transform (steps.drop (k - first)))).inFrame
          ⟨transform, recording.frame.saved⟩)
  | [], _, recording, _ => by
    refine ⟨recording.frame.transform, ?_⟩
    rw [List.drop_nil]
    exact congrArg (Prod.mk _) (Recording.append_nil recording).symm
  | step :: rest, first, recording, hindices => by
    obtain ⟨hhead, htail⟩ := List.cons.inj hindices
    have hindex : step.index = first := hhead
    by_cases h : k ≤ step.index
    · obtain ⟨transform, hrest⟩ := run_drawLeft k (first + 1) _ htail
      refine ⟨transform, (run_bind_ok (run_drawLeft_of_le h recording)).trans (hrest.trans ?_)⟩
      rw [Recording.append_append, show k - first = 0 by omega, show k - (first + 1) = 0 by omega]
      rfl
    · obtain ⟨transform, hrest⟩ := run_drawLeft k (first + 1) recording htail
      rw [show k - first = (k - (first + 1)) + 1 by omega]
      exact ⟨transform, (run_bind_ok (run_drawLeft_of_lt (not_le.mp h) recording)).trans hrest⟩

/-- **Backward drawing at an integer position adds what the steps from there on draw.** -/
theorem drawBackward_natCast {steps : List (Step K)} (k : Nat)
    (hindices : steps.map (·.index) = List.range' 0 steps.length) (base : Affine K) :
    (Timeline.drawBackward steps (k : K) none) (Recording.start base) =
      (.ok (), (Recording.start base).append (movingCalls base (steps.drop k))) := by
  obtain ⟨transform, hrun⟩ := run_drawLeft k 0
    ((Recording.start base).inFrame (Recording.start base).frame.save) hindices
  exact Recording.run_framed ((run_bind_ok hrun).trans rfl)

/-! ## Rendering -/

/-- A finished step draws in the frame in which it ends. -/
theorem finished_of_matrix {step : Step K} {start : Affine K} (hprevious : step.previous = start)
    (hmatrix : step.matrix = start * step.partway one) (base : Affine K) :
    step.finished base = step.wholeCalls (base * step.matrix) := by
  unfold Step.finished
  rw [callsIn_one]
  cases hcommand : step.command with
  | draw paint figure color =>
    have hpart : step.partway one = 1 := by
      unfold Step.partway
      rw [hcommand]
      rfl
    have hprogress : (step.progress one).matrix = step.previous := by
      unfold Step.progress
      rw [hcommand]
    rw [hprogress, hmatrix, hpart, mul_one, hprevious]
  | _ =>
    unfold Step.wholeCalls
    rw [hcommand]

theorem Chained.finished_eq {start : Affine K} {steps : List (Step K)} (h : Chained start steps)
    (base : Affine K) :
    ∀ step ∈ steps, step.finished base = step.wholeCalls (base * step.matrix) := by
  induction steps generalizing start with
  | nil => exact fun _ hmem => nomatch hmem
  | cons step rest ih =>
    obtain ⟨hprevious, hmatrix, hrest⟩ := h
    exact List.forall_mem_cons.mpr ⟨finished_of_matrix hprevious hmatrix base, ih hrest⟩

/-- **Forward rendering at the end draws every step in the frame in which it ends.** -/
theorem run_render_end (timeline : Timeline K) (hchained : Chained Affine.identity timeline.steps)
    (hindices : timeline.steps.map (·.index) = List.range' 0 timeline.length) (base : Affine K)
    (reverses : Bool) :
    ∃ trace,
      (timeline.render (.ok (ofInt timeline.length)) .forward reverses none).run
        (Recording.start base) = (.ok trace, { Recording.start base with
          calls := timeline.steps.flatMap fun step => step.wholeCalls (base * step.matrix) }) := by
  obtain ⟨trace, hrender⟩ :=
    timeline.run_render_forward_end (Exact.countsTo K (timeline.length + 1 : Nat))
      (by omega) hindices (by omega) base reverses
  rw [List.flatMap_congr (hchained.finished_eq base)] at hrender
  exact ⟨trace, hrender⟩

/-- **Backward rendering at a position draws the steps from there on in one moving frame.** -/
theorem run_render_backward {timeline : Timeline K} (hstack : timeline.hasStack = false)
    (hindices : timeline.steps.map (·.index) = List.range' 0 timeline.length) {k : Nat}
    {position : K} {reverses : Bool}
    (hposition : effectivePosition position timeline.length reverses = k) (base : Affine K) :
    ∃ trace, (timeline.render (.ok position) .backward reverses none).run (Recording.start base) =
      (.ok trace, { Recording.start base with
        calls := movingCalls base (timeline.steps.drop k) }) := by
  have hallowed : timeline.allowed .backward = .ok .backward := by
    unfold Timeline.allowed
    rw [hstack]
    exact if_neg fun h => Bool.noConfusion h.2
  refine Timeline.run_render hallowed ((congrArg _ (Bool.and_true reverses)).trans hposition) ?_
  exact Timeline.run_draw (drawBackward_natCast k hindices base)

/-- Backward rendering at position `k` draws the steps from `k` on, in their full colours and in
frames that lead from the one before step `k` to their own. -/
def Timeline.DrawsBackwardFrom (timeline : Timeline K) (k : Nat) : Prop :=
  ∃ travelled : Nat → Affine K,
    (∀ step ∈ timeline.steps, k ≤ step.index →
      frameBefore Affine.identity timeline.steps k * travelled step.index = step.matrix) ∧
    ∀ (base : Affine K) (position : K) (reverses : Bool),
      effectivePosition position timeline.length reverses = k →
      ∃ trace,
        (timeline.render (.ok position) .backward reverses none).run (Recording.start base) =
          (.ok trace, { Recording.start base with
            calls := (timeline.steps.drop k).flatMap fun step =>
              step.wholeCalls (base * travelled step.index) })

/-- Backward rendering at position zero and forward rendering at the end draw the same: every step
in its full colour and in the frame in which it ends. -/
def Timeline.DrawsAlike (timeline : Timeline K) : Prop :=
  ∀ (base : Affine K) (position : K) (reverses reverses' : Bool),
    effectivePosition position timeline.length reverses = 0 →
    ∃ trace trace' recording,
      (timeline.render (.ok position) .backward reverses none).run (Recording.start base) =
        (.ok trace, recording) ∧
      (timeline.render (.ok (ofInt timeline.length)) .forward reverses' none).run
        (Recording.start base) = (.ok trace', recording) ∧
      recording = { Recording.start base with
        calls := timeline.steps.flatMap fun step => step.wholeCalls (base * step.matrix) }

/-- **Backward rendering draws what is left as forward rendering does**, for every timeline without
saves and restores. -/
theorem render_backward {defaults : PerPaint String} {commands : List (Command K)}
    {timeline : Timeline K} (hcompile : Timeline.compile defaults commands = .ok timeline)
    (hstack : timeline.hasStack = false) {k : Nat} (hk : k ≤ timeline.length) :
    timeline.DrawsBackwardFrom k ∧ timeline.DrawsAlike := by
  obtain ⟨steps, hsteps, h⟩ := bind_eq_ok.mp hcompile
  obtain rfl := Except.ok.inj h
  have hcommands (command) (hmem : command ∈ commands) : command.isStack = false := by
    rw [← Timeline.commands_stepsFrom hsteps] at hmem
    obtain ⟨step, hstep, rfl⟩ := List.mem_map.mp hmem
    have := List.any_eq_false.mp hstack step hstep
    simpa using this
  have hchained : Chained Affine.identity steps := chained_stepsFrom hsteps hcommands
  have hindices := Timeline.indices_stepsFrom hsteps
  refine ⟨?_, fun base position reverses reverses' hposition => ?_⟩
  · have hdrop : (steps.drop k).map (·.index) = List.range' k (steps.drop k).length := by
      rw [List.map_drop, hindices, List.drop_range', List.length_drop, Nat.zero_add, Nat.mul_one]
    obtain ⟨travelled, hto, hcalls⟩ := exists_travelled k (hchained.drop k hk) hdrop
    refine ⟨travelled, fun step hmem hindex => ?_, fun base position reverses hposition => ?_⟩
    · exact hto step (mem_drop_of_le_index hindices hmem hindex)
    · rw [← hcalls base]
      exact run_render_backward hstack hindices hposition base
  · obtain ⟨travelled, hto, hcalls⟩ := exists_travelled 0 hchained hindices
    obtain ⟨trace, hbackward⟩ :=
      run_render_backward hstack hindices (hposition.trans Nat.cast_zero.symm) base
    obtain ⟨trace', hforward⟩ := run_render_end ⟨steps, _⟩ hchained hindices base reverses'
    have hsame : movingCalls base steps =
        steps.flatMap fun step => step.wholeCalls (base * step.matrix) := by
      rw [hcalls base]
      refine List.flatMap_congr fun step hmem => ?_
      rw [← hto step hmem, ← Affine.one_eq, one_mul]
    rw [List.drop_zero, hsame] at hbackward
    exact ⟨trace, trace', _, hbackward, hforward, rfl⟩

/-- The functions of the reals. -/
noncomputable instance : ScalarFunctions Real where
  sqrt := Real.sqrt
  sin := Real.sin
  cos := Real.cos
  pi := Real.pi

/-- A program of motions, figures and styles over the reals. -/
def turningProgram : List (Command Real) := [
  .move (.translate (.int 10) (.int 5)),
  .style .fill "red",
  .draw .fill (.rect (.int 0) (.int 0) (.int 4) (.int 4)) none,
  .move (.rotate (.int 30)),
  .invalid [.text "spin"] "unknown",
  .move (.shear (.int 1) (.int 0)),
  .draw .stroke (.triangle (.int 0) (.int 0) (.int 1) (.int 0) (.int 0) (.int 1)) (some "blue")]

theorem exists_compile_turning :
    ∃ timeline, Timeline.compile ⟨"black", "#888"⟩ turningProgram = .ok timeline ∧
      timeline.length = 7 ∧ timeline.hasStack = false := by
  have hcolors : ∀ command ∈ turningProgram, ∀ style ∈ command.colors,
      Rgba.isStyle style = true := by
    have hred : Rgba.isStyle "red" = true := by decide +kernel
    have hblue : Rgba.isStyle "blue" = true := by decide +kernel
    simp [turningProgram, Command.colors, hred, hblue]
  obtain ⟨timeline, hcompile, hcommands⟩ := Timeline.exists_compile isStyle_defaults hcolors
  refine ⟨timeline, hcompile, ?_, ?_⟩
  · exact (List.length_map _).symm.trans (congrArg List.length hcommands)
  · have hstack : (timeline.steps.map (·.command)).any Command.isStack = false := by
      rw [hcommands]
      rfl
    rwa [List.any_map] at hstack

theorem render_backward_turning :
    ∃ timeline, Timeline.compile ⟨"black", "#888"⟩ turningProgram = .ok timeline ∧
      timeline.hasStack = false ∧ 3 ≤ timeline.length ∧
      timeline.DrawsBackwardFrom 3 ∧ timeline.DrawsAlike := by
  obtain ⟨timeline, hcompile, hseven, hstack⟩ := exists_compile_turning
  have hlength : 3 ≤ timeline.length := by omega
  exact ⟨timeline, hcompile, hstack, hlength, render_backward hcompile hstack hlength⟩

end CanvasScript
