import CanvasScript.Proofs.Scalar.Exact
import CanvasScript.Proofs.Timeline.Compile
import CanvasScript.Timeline.Render
import Mathlib.Algebra.Order.Group.MinMax

/-!
# Amounts without rounding

How much of a step is done at a position is asked in several places: by the trace (`build_trace`),
by forward and by backward drawing (`_render_nested` and `_render_flat`), and each of them tells in
its own way which steps lie before the position. Without rounding they agree.

* `clampPosition_eq` and `effectivePosition_mem`: positions are brought onto the timeline.
* `Trace.amount_eq`: the amount of a step is the part of its way that lies before the position.
* `Step.forwardAmount_eq` and `Step.backwardAmount_eq`: **forward drawing draws the amount of the
  trace, and backward drawing what is left of it**.
* `Trace.progress_eq`: a step is done, active or pending by where the position stands.
* `Timeline.begun_eq_take`: **the steps that have begun are those before the position rounded up**.

Out of scope: the rounding of doubles, under which what is left of a step may be rounded to all of
it.
-/

namespace CanvasScript

open Scalar
open scoped Exact

variable {K : Type} [Field K] [LinearOrder K] [FloorRing K] [ScalarFunctions K]

/-! ## Positions -/

theorem clampPosition_eq (p : K) (n : Nat) : clampPosition p n = max 0 (min p n) := by
  simp [clampPosition]

theorem clampPosition_of_mem {p : K} {n : Nat} (hnonneg : 0 ≤ p) (hlength : p ≤ n) :
    clampPosition p n = p := by
  rw [clampPosition_eq, min_eq_left hlength, max_eq_right hnonneg]

theorem clampPosition_mono {p q : K} (hpq : p ≤ q) (n : Nat) :
    clampPosition p n ≤ clampPosition q n := by
  rw [clampPosition_eq, clampPosition_eq]
  exact max_le_max_left 0 (min_le_min_right _ hpq)

omit [ScalarFunctions K] in
/-- A position inside a step or at its end, rounded up. -/
theorem ceil_eq_of_mem {i : Nat} {p : K} (hlow : i < p) (hhigh : p ≤ i + 1) : ⌈p⌉₊ = i + 1 := by
  refine (Nat.ceil_eq_iff i.succ_ne_zero).mpr ⟨hlow, ?_⟩
  rwa [Nat.cast_succ]

variable [IsStrictOrderedRing K]

theorem effectivePosition_mem (p : K) (n : Nat) (reversed : Bool) :
    0 ≤ effectivePosition p n reversed ∧ effectivePosition p n reversed ≤ n := by
  have hlow : 0 ≤ clampPosition p n := by
    rw [clampPosition_eq]
    exact le_max_left 0 _
  have hhigh : clampPosition p n ≤ n := by
    rw [clampPosition_eq]
    exact max_le (Nat.cast_nonneg n) (min_le_right p _)
  unfold effectivePosition
  cases reversed with
  | false => exact ⟨hlow, hhigh⟩
  | true =>
    rw [if_pos rfl, Exact.ofInt_eq, Int.cast_natCast]
    exact ⟨sub_nonneg.mpr hhigh, sub_le_self _ hlow⟩

/-! ## Amounts -/

namespace Trace

/-- The amount of a step is the part of its way that lies before the position. -/
theorem amount_eq (i : Nat) (p : K) : amount i p = max 0 (min 1 (p - i)) := by
  simp only [amount, Exact.ofInt_eq, Exact.zero_eq, Exact.one_eq, Exact.least_eq, Int.cast_natCast]
  split_ifs with h
  · exact (max_eq_left (min_le_of_right_le (sub_nonpos.mpr h))).symm
  · exact (max_eq_right (le_min zero_le_one (sub_nonneg.mpr (not_le.mp h).le))).symm

theorem amount_nonneg (i : Nat) (p : K) : 0 ≤ amount i p := by
  rw [amount_eq]
  exact le_max_left 0 _

theorem amount_le_one (i : Nat) (p : K) : amount i p ≤ 1 := by
  rw [amount_eq]
  exact max_le zero_le_one (min_le_left 1 _)

/-- What has begun lies before the position. -/
theorem amount_pos_iff {i : Nat} {p : K} : 0 < amount i p ↔ (i : K) < p := by
  rw [amount_eq, lt_max_iff, lt_min_iff, sub_pos]
  simp

/-- What is done lies before the position to its end. -/
theorem one_le_amount_iff {i : Nat} {p : K} : 1 ≤ amount i p ↔ (i : K) + 1 ≤ p := by
  rw [amount_eq, le_max_iff, le_min_iff, le_sub_iff_add_le']
  simp

/-- Inside its step a position has come as far as it stands behind the start. -/
theorem amount_of_mem {i : Nat} {p : K} (hlow : (i : K) ≤ p) (hhigh : p ≤ i + 1) :
    amount i p = p - i := by
  rw [amount_eq, min_eq_right (sub_le_iff_le_add'.mpr hhigh), max_eq_right (sub_nonneg.mpr hlow)]

/-- Before the start of a step nothing of it is done. -/
theorem amount_of_le {i : Nat} {p : K} (h : p ≤ i) : amount i p = 0 :=
  le_antisymm (not_lt.mp fun hpos => h.not_gt (amount_pos_iff.mp hpos)) (amount_nonneg i p)

/-- Behind the end of a step all of it is done. -/
theorem amount_of_done {i : Nat} {p : K} (h : (i : K) + 1 ≤ p) : amount i p = 1 :=
  le_antisymm (amount_le_one i p) (one_le_amount_iff.mpr h)

/-- **A step is done, active or pending by where the position stands.** -/
theorem progress_eq (i : Nat) (p : K) :
    progress i p =
      if (i : K) + 1 ≤ p then .done else if (i : K) < p then .active else .pending := by
  simp only [progress, Exact.ofInt_eq, Exact.one_eq, one_le_amount_iff, Int.cast_natCast,
    Int.cast_add, Int.cast_one]
  by_cases hdone : (i : K) + 1 ≤ p
  · rw [if_pos hdone, if_pos hdone, if_neg fun h => h.2.not_ge hdone]
  · rw [if_neg hdone, if_neg hdone]
    simp only [not_le.mp hdone, and_true]

end Trace

namespace Step

/-- **Forward drawing draws the amount of the trace.** -/
theorem forwardAmount_eq (step : Step K) (p : K) :
    step.forwardAmount p = Trace.amount step.index p := by
  rw [Trace.amount_eq]
  simp only [forwardAmount, Exact.ofInt_eq, Exact.zero_eq, Exact.one_eq, Exact.least_eq,
    Int.cast_natCast]
  split_ifs with h
  · exact (max_eq_left (min_le_of_right_le (sub_nonpos.mpr h.le))).symm
  · exact (max_eq_right (le_min zero_le_one (sub_nonneg.mpr (not_lt.mp h)))).symm

/-- **Backward drawing draws what is left of it.** -/
theorem backwardAmount_eq (step : Step K) (p : K) :
    step.backwardAmount p = 1 - Trace.amount step.index p := by
  rw [Trace.amount_eq]
  simp only [backwardAmount, Exact.ofInt_eq, Exact.zero_eq, Exact.one_eq, Exact.least_eq,
    Int.cast_natCast, Int.cast_add, Int.cast_one]
  split_ifs with h
  · have hdone : 1 ≤ p - step.index := le_sub_iff_add_le'.mpr h.le
    rw [min_eq_left hdone, max_eq_right zero_le_one, sub_self]
  · have hopen : p - step.index ≤ 1 := sub_le_iff_le_add'.mpr (not_lt.mp h)
    rw [min_eq_right hopen, ← min_sub_sub_left, sub_zero, sub_sub_eq_add_sub, add_comm]

end Step

namespace Timeline

/-- **The steps that have begun are those before the position rounded up.** -/
theorem begun_eq_take {steps : List (Step K)}
    (hindices : steps.map (·.index) = List.range' 0 steps.length) (p : K) :
    begun steps p =
      (steps.take ⌈p⌉₊).map fun step => (step, Trace.amount step.index p) := by
  have hbegun (step : Step K) : zero < Trace.amount step.index p ↔ step.index < ⌈p⌉₊ := by
    rw [Exact.zero_eq, Trace.amount_pos_iff, Nat.lt_ceil]
  unfold begun
  rw [List.filter_map, ← filter_index_lt hindices]
  simp only [Function.comp_def, Step.forwardAmount_eq, hbegun]

end Timeline

end CanvasScript
