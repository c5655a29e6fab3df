import CanvasScript.Proofs.Geometry
import CanvasScript.Proofs.Timeline.Backward
import CanvasScript.Proofs.Timeline.Colored

/-!
# Between the frames of a timeline

Compiling a program computes the frames before and behind each of its commands (`compile_commands`),
and a step computes by itself how far it has come between the two (`progress`). Without rounding
both agree.

* `Step.progress_zero` and `IsStepOf.progress_one`: **a step leads from the frame before it to the
  one behind it**.
* `IsStepOf.progress_move`: shifts, scales, shears and matrices lead straight from the one to the
  other.
* `Step.draw_eq`: a drawing has the colour that its progress tells.
* `Timeline.progress_interpolates`: **so do all steps of a timeline**, with any functions that have
  the sine and the cosine of zero.

Out of scope: the rounding of doubles, by which a motion may end beside the frame behind it.
-/

namespace CanvasScript

open Scalar
open scoped Exact

variable {K : Type} [Field K] [LinearOrder K] [FloorRing K] [ScalarFunctions K]

/-- A colour fades as far as its amount is clamped. -/
theorem Rgba.fade_unitClamp (c : Rgba) (t : K) : c.fade (unitClamp t) = c.fade t := by
  unfold fade fade? fadedAlpha
  rw [Exact.unitClamp_unitClamp]

/-! ## Steps -/

namespace Step

/-- The colour that a drawing has at `t` is the one that its progress tells. -/
theorem draw_eq {step : Step K} {paint : Paint} {figure : Figure K} {color : Option String}
    (hcommand : step.command = .draw paint figure color) {σ : Type} [Surface K σ] (t : K) :
    (step.draw t : Drawing σ Unit) = Surface.paint (.figure paint figure) lineWidth
      ((step.progress t).color.get paint) := by
  unfold draw progress
  rw [hcommand]
  show _ = Surface.paint _ _ ((step.color.map fun c => c.fade (unitClamp t)).get paint)
  rw [PerPaint.get_map, Rgba.fade_unitClamp]

/-- A motion stands in the frame that its part moves the one before it to. -/
theorem progress_move {step : Step K} {motion : Motion K} (hcommand : step.command = .move motion)
    (t : K) : (step.progress t).matrix = step.previous * motion.partway (unitClamp t) := by
  unfold progress partway
  rw [hcommand]
  show step.previous * motion.partway (unitClamp (unitClamp t)) = _
  rw [Exact.unitClamp_unitClamp]

/-- Saves and restores wait for their end. -/
theorem progress_stack {step : Step K} (h : step.command.isStack = true) (t : K) :
    step.progress t = if 1 ≤ unitClamp t then ⟨step.matrix, step.after⟩
      else ⟨step.previous, step.before⟩ := by
  unfold progress
  rw [← Exact.one_eq]
  cases hcommand : step.command with
  | save | restore | invalid => rfl
  | move | style | draw =>
    rw [hcommand] at h
    cases h

/-- **A step that has gone nothing of its way stands in the frame before it.** -/
theorem progress_zero (hsin : sin (0 : K) = 0) (hcos : cos (0 : K) = 1) (step : Step K) :
    (step.progress 0).matrix = step.previous := by
  have hclamp : unitClamp (0 : K) = 0 := by simp [Exact.unitClamp_eq]
  have hopen : ¬ (one : K) ≤ 0 := by simp
  cases hcommand : step.command with
  | move motion => rw [progress_move hcommand, hclamp, motion.partway_zero hsin hcos, mul_one]
  | style | draw =>
    unfold progress
    rw [hcommand]
  | save | restore | invalid =>
    unfold progress
    rw [hcommand, hclamp]
    dsimp only
    rw [if_neg hopen]

/-- A drawing, a style and what was refused stay in the frame before them. -/
theorem progress_still {step : Step K} (hstack : step.command.isStack = false)
    (hmove : ∀ motion, step.command ≠ .move motion) (hmatrix : step.matrix = step.previous)
    (t : K) : (step.progress t).matrix = step.previous := by
  unfold progress
  cases hcommand : step.command with
  | style | draw => rfl
  | invalid =>
    dsimp only
    split
    · exact hmatrix
    · rfl
  | move motion => exact absurd hcommand (hmove motion)
  | save | restore =>
    rw [hcommand] at hstack
    cases hstack

end Step

namespace IsStepOf

variable {defaults earlier : PerPaint String} {index : Nat} {pen : Pen K} {step : Step K}

/-- What neither moves, saves nor restores leaves the frame alone. -/
theorem matrix_eq_previous (h : IsStepOf defaults earlier index pen step.command step)
    (hstack : step.command.isStack = false) (hmove : ∀ motion, step.command ≠ .move motion) :
    step.matrix = step.previous := by
  rw [h.matrix_eq, h.previous_eq]
  cases hcommand : step.command with
  | style | draw | invalid => rfl
  | move motion => exact absurd hcommand (hmove motion)
  | save | restore =>
    rw [hcommand] at hstack
    cases hstack

/-- A motion leads to the frame that it moves the one before it to. -/
theorem matrix_eq_mul (h : IsStepOf defaults earlier index pen step.command step)
    {motion : Motion K} (hcommand : step.command = .move motion) :
    step.matrix = step.previous * motion.transform := by
  rw [h.matrix_eq, h.previous_eq, hcommand]
  rfl

/-- **A step that has gone all its way stands in the frame behind it.** -/
theorem progress_one (h : IsStepOf defaults earlier index pen step.command step) :
    (step.progress 1).matrix = step.matrix := by
  have hclamp : unitClamp (1 : K) = 1 := by simp [Exact.unitClamp_eq]
  cases hcommand : step.command with
  | move motion =>
    rw [Step.progress_move hcommand, hclamp, ← Exact.one_eq, motion.partway_one,
      h.matrix_eq_mul hcommand]
  | save | restore => rw [Step.progress_stack (by rw [hcommand]; rfl), hclamp, if_pos le_rfl]
  | style | draw | invalid =>
    have hstack : step.command.isStack = false := by rw [hcommand]; rfl
    have hmove (motion) : step.command ≠ .move motion := by rw [hcommand]; exact fun h => nomatch h
    have hmatrix := h.matrix_eq_previous hstack hmove
    rw [Step.progress_still hstack hmove hmatrix, hmatrix]

/-- **A straight motion leads straight from the frame before it to the one behind it.** -/
theorem progress_move (h : IsStepOf defaults earlier index pen step.command step)
    {motion : Motion K} (hcommand : step.command = .move motion)
    (hstraight : motion.isStraight = true) (t : K) :
    (step.progress t).matrix = Affine.between step.previous step.matrix (unitClamp t) := by
  rw [Step.progress_move hcommand, Motion.mul_partway hstraight, h.matrix_eq_mul hcommand]

end IsStepOf

/-! ## Timelines -/

/-- The progress of a step leads from the frame before it to the one behind it, as its command says:
`min 1 (max 0 t)` is how far it has come at `t`. -/
structure Step.Interpolates (step : Step K) : Prop where
  zero : (step.progress 0).matrix = step.previous
  one : (step.progress 1).matrix = step.matrix
  /-- Shifts, scales, shears and matrices go straight. -/
  straight : ∀ motion, step.command = .move motion → motion.isStraight = true → ∀ t,
    (step.progress t).matrix = Affine.between step.previous step.matrix (min 1 (max 0 t))
  /-- Saves and restores come into effect at the end. -/
  waits : step.command.isStack = true → ∀ t,
    (min 1 (max 0 t) < 1 → step.progress t = ⟨step.previous, step.before⟩) ∧
    (min 1 (max 0 t) = 1 → step.progress t = ⟨step.matrix, step.after⟩)
  /-- What else there is leaves the frame alone. -/
  still : step.command.isStack = false → (∀ motion, step.command ≠ .move motion) →
    step.matrix = step.previous ∧ ∀ t, (step.progress t).matrix = step.previous
  /-- A drawing has the colour of its progress, on every surface. -/
  drawn : ∀ paint figure color, step.command = .draw paint figure color →
    ∀ {σ : Type} [Surface K σ] (t : K), (step.draw t : Drawing σ Unit) =
      Surface.paint (.figure paint figure) Step.lineWidth ((step.progress t).color.get paint)

/-- **Every step of a timeline leads from the frame before it to the one behind it.** -/
theorem Timeline.progress_interpolates (hsin : sin (0 : K) = 0) (hcos : cos (0 : K) = 1)
    {defaults : PerPaint String} {commands : List (Command K)} {timeline : Timeline K}
    (hcompile : Timeline.compile defaults commands = .ok timeline) :
    ∀ step ∈ timeline.steps, step.Interpolates := by
  obtain ⟨steps, hsteps, h⟩ := bind_eq_ok.mp hcompile
  obtain rfl := Except.ok.inj h
  intro step hmem
  obtain ⟨_, _, _, hstep⟩ := exists_isStepOf hsteps step hmem
  refine ⟨step.progress_zero hsin hcos, hstep.progress_one, fun motion hcommand hstraight t => ?_,
    fun hstack t => ⟨fun ht => ?_, fun ht => ?_⟩, fun hstack hmove => ?_,
    fun paint figure color hcommand _ _ t => Step.draw_eq hcommand t⟩
  · rw [hstep.progress_move hcommand hstraight, Exact.unitClamp_eq]
  · rw [Step.progress_stack hstack, Exact.unitClamp_eq, if_neg ht.not_ge]
  · rw [Step.progress_stack hstack, Exact.unitClamp_eq, if_pos ht.ge]
  · have hmatrix := hstep.matrix_eq_previous hstack hmove
    exact ⟨hmatrix, Step.progress_still hstack hmove hmatrix⟩

/-- A program over the reals with a save and its restore, and with commands of all other kinds. -/
def nestedProgram : List (Command Real) := [
  .move (.scale (.int 2) (.int 3)),
  .save,
  .move (.translate (.int 10) (.int 5)),
  .style .fill "red",
  .draw .fill (.rect (.int 0) (.int 0) (.int 4) (.int 4)) none,
  .move (.rotate (.int 30)),
  .restore,
  .move (.matrix (.int 1) (.int 2) (.int 3) (.int 4) (.int 5) (.int 6)),
  .invalid [.text "spin"] "unknown",
  .move (.shear (.int 1) (.int 0)),
  .draw .stroke (.triangle (.int 0) (.int 0) (.int 1) (.int 0) (.int 0) (.int 1)) (some "blue")]

theorem exists_compile_nested :
    ∃ timeline, Timeline.compile ⟨"black", "#888"⟩ nestedProgram = .ok timeline ∧
      timeline.steps.map (·.command) = nestedProgram := by
  refine Timeline.exists_compile isStyle_defaults ?_
  have hred : Rgba.isStyle "red" = true := by decide +kernel
  have hblue : Rgba.isStyle "blue" = true := by decide +kernel
  simp [nestedProgram, Command.colors, hred, hblue]

theorem progress_interpolates_nested :
    sin (0 : Real) = 0 ∧ cos (0 : Real) = 1 ∧ ∃ timeline,
      Timeline.compile ⟨"black", "#888"⟩ nestedProgram = .ok timeline ∧
      timeline.steps.map (·.command) = nestedProgram ∧
      ∀ step ∈ timeline.steps, step.Interpolates := by
  obtain ⟨timeline, hcompile, hcommands⟩ := exists_compile_nested
  have hsin : sin (0 : Real) = 0 := Real.sin_zero
  have hcos : cos (0 : Real) = 1 := Real.cos_zero
  exact ⟨hsin, hcos, timeline, hcompile, hcommands,
    Timeline.progress_interpolates hsin hcos hcompile⟩

end CanvasScript
