import CanvasScript.Playback.Scheduler
import CanvasScript.Proofs.Scalar.Exact

/-!
# The grid of a scheduler

Without rounding errors every value has a point of the grid. The point is found (`quantize`) by
rounding twice: to a count of steps, and then to a count of decimals. The second rounding leads off
the steps, and the steps may lie closer together than the decimals do. Still a point of the grid is
its own point, also where both lie equally close, since ties go to even counts in both roundings.

* `Scheduler.point s v` is the point of a value, and `quantize_eq` says so.
* `Scheduler.point_mono`: **the grid keeps the order of values**.
* `Scheduler.point_point`: **a point of the grid stays where it is**.

Out of scope: the rounding of doubles.
-/

namespace CanvasScript

open Scalar
open scoped Exact

namespace Exact

variable {K : Type} [Field K] [LinearOrder K] [FloorRing K]

/-- The multiple of a unit nearest to a scalar, half way between two the even one. -/
def multiple (unit x : K) : K := halfEven (x / unit) * unit

variable [IsStrictOrderedRing K] {unit step : K}

theorem multiple_mono (h : 0 < unit) : Monotone (multiple unit) := by
  intro x y hxy
  have hcount : halfEven (x / unit) ≤ halfEven (y / unit) :=
    halfEven_mono (div_le_div_of_nonneg_right hxy h.le)
  exact mul_le_mul_of_nonneg_right (Int.cast_le.mpr hcount) h.le

omit [FloorRing K] in
theorem abs_div_sub (h : 0 < unit) (x : K) (n : Int) :
    |x / unit - n| = |x - n * unit| / unit := by
  rw [← abs_of_pos h, ← abs_div, abs_of_pos h, sub_div, mul_div_cancel_right₀ _ h.ne']

theorem abs_sub_multiple (h : 0 < unit) (x : K) : |x - multiple unit x| ≤ unit / 2 := by
  have hdistance := (nearest_halfEven (x / unit)).distance
  rw [abs_div_sub h, div_le_iff₀ h] at hdistance
  exact hdistance.trans_eq (one_div_mul_eq_div 2 unit)

/-- What is rounded from half way between two multiples is an even one. -/
theorem even_of_abs_sub_multiple (h : 0 < unit) {x : K} (hx : |x - multiple unit x| = unit / 2) :
    halfEven (x / unit) % 2 = 0 := by
  refine (nearest_halfEven (x / unit)).even ?_
  rw [abs_div_sub h, div_eq_iff h.ne']
  exact hx.trans (one_div_mul_eq_div 2 unit).symm

/-- A multiple is the nearest one to what lies closer than half way to the next, and if it is an
even one also to what lies half way. -/
theorem multiple_eq (h : 0 < unit) {x : K} {n : Int} (hdistance : |x - n * unit| ≤ unit / 2)
    (heven : |x - n * unit| = unit / 2 → n % 2 = 0) : multiple unit x = n * unit := by
  have hnearest : Nearest (x / unit) n := by
    refine ⟨?_, fun htie => heven ?_⟩
    · rw [abs_div_sub h, div_le_iff₀ h, one_div_mul_eq_div]
      exact hdistance
    · rwa [abs_div_sub h, div_eq_iff h.ne', one_div_mul_eq_div] at htie
  unfold multiple
  rw [hnearest.halfEven_eq]

theorem multiple_eq_of_lt (h : 0 < unit) {x y : K} (hy : multiple unit y = y)
    (hlt : |x - y| < unit / 2) : multiple unit x = y := by
  rw [← hy] at hlt ⊢
  exact multiple_eq h hlt.le fun heq => absurd heq hlt.ne

theorem multiple_multiple (h : 0 < unit) (x : K) :
    multiple unit (multiple unit x) = multiple unit x := by
  unfold multiple
  rw [mul_div_cancel_right₀ _ h.ne', halfEven_intCast]

/-- **Rounding twice comes to rest at once**: to steps from an offset, and then to units. -/
theorem multiple_twice (hunit : 0 < unit) (hstep : 0 < step) (offset x : K) {y : K}
    (hy : multiple unit (offset + multiple step (x - offset)) = y) :
    multiple unit (offset + multiple step (y - offset)) = y := by
  have hunits : multiple unit y = y := by rw [← hy, multiple_multiple hunit]
  -- closer to the step that it was rounded from than half way to the next, that step is found again
  by_cases hclose : |y - offset - multiple step (x - offset)| < step / 2
  · rw [multiple_eq_of_lt hstep (multiple_multiple hstep _) hclose, hy]
  · have hfirst := abs_sub_multiple hunit (offset + multiple step (x - offset))
    have hsecond := abs_sub_multiple hstep (y - offset)
    have hdistance : |offset + multiple step (x - offset) - multiple unit
        (offset + multiple step (x - offset))| = |y - offset - multiple step (x - offset)| := by
      rw [hy, abs_sub_comm]
      congr 1
      ring
    have hdistance' : |offset + multiple step (y - offset) - y| =
        |y - offset - multiple step (y - offset)| := by
      rw [abs_sub_comm]
      congr 1
      ring
    by_cases hlt : |offset + multiple step (y - offset) - y| < unit / 2
    · exact multiple_eq_of_lt hunit hunits hlt
    · -- units and steps are equally far apart, and both ways are half of that
      have htie : |offset + multiple step (x - offset) - multiple unit
          (offset + multiple step (x - offset))| = unit / 2 := by linarith
      have heven := even_of_abs_sub_multiple hunit htie
      have hcount : y = halfEven ((offset + multiple step (x - offset)) / unit) * unit := hy.symm
      conv_rhs => rw [hcount]
      refine multiple_eq hunit ?_ fun _ => heven
      rw [← hcount]
      linarith

end Exact

namespace Scheduler

variable {K : Type} [Field K] [LinearOrder K] [FloorRing K] [ScalarFunctions K]

/-- One in the last decimal of a point. -/
def decimal : K := 1 / (10 ^ gridPlaces : Nat)

omit [FloorRing K] [ScalarFunctions K] in
theorem decimal_pos [IsStrictOrderedRing K] : (0 : K) < decimal := by
  unfold decimal
  positivity

/-- The point of the grid for a value. The ends of the range are points of it. -/
def point (s : Scheduler K) (v : K) : K :=
  match s.stepSize with
  | none => s.clamp v
  | some step =>
    if s.clamp v = s.minimum ∨ s.clamp v = s.maximum then s.clamp v
    else s.clamp (Exact.multiple decimal
      (s.minimum + Exact.multiple step (s.clamp v - s.minimum)))

theorem point_of_none {s : Scheduler K} (h : s.stepSize = none) (v : K) :
    s.point v = s.clamp v := by
  unfold point
  rw [h]

/-- A value within the range is rounded to steps and to decimals. -/
theorem point_of_step {s : Scheduler K} {step v : K} (h : s.stepSize = some step)
    (hv : ¬ (s.clamp v = s.minimum ∨ s.clamp v = s.maximum)) :
    s.point v = s.clamp (Exact.multiple decimal
      (s.minimum + Exact.multiple step (s.clamp v - s.minimum))) := by
  unfold point
  rw [h]
  exact if_neg hv

/-- **Every value has a point of the grid.** -/
theorem quantize_eq (s : Scheduler K) (v : K) : s.quantize v = .ok (s.point v) := by
  have hsame (a b : K) : same a b = true ↔ a = b := by
    rw [same, Bool.and_eq_true, decide_eq_true_iff, decide_eq_true_iff]
    exact le_antisymm_iff.symm
  have hround (x : K) : roundTo gridPlaces x = Exact.multiple decimal x := by
    show (Exact.halfEven (x * 10 ^ gridPlaces) / 10 ^ gridPlaces : K) = _
    rw [Exact.multiple, decimal, div_div_eq_mul_div, div_one, mul_one_div, Nat.cast_pow,
      Nat.cast_ofNat]
  unfold quantize point
  cases s.stepSize with
  | none => rfl
  | some step =>
    dsimp only
    by_cases hend : s.clamp v = s.minimum ∨ s.clamp v = s.maximum
    · rw [if_pos hend, if_pos]
      rwa [Bool.or_eq_true, hsame, hsame]
    · rw [if_neg hend, if_neg, ← hround]
      · rfl
      · rwa [Bool.or_eq_true, hsame, hsame]

theorem clamp_eq (s : Scheduler K) (v : K) : s.clamp v = max s.minimum (min v s.maximum) := by
  unfold clamp
  rw [Exact.greatest_eq, Exact.least_eq]

theorem clamp_mono (s : Scheduler K) : Monotone s.clamp := by
  intro v w h
  rw [clamp_eq, clamp_eq]
  exact max_le_max_left _ (min_le_min_right _ h)

/-- A value of the range is left where it is. -/
theorem clamp_of_mem {s : Scheduler K} {v : K} (hlo : s.minimum ≤ v) (hhi : v ≤ s.maximum) :
    s.clamp v = v := by
  rw [clamp_eq, min_eq_left hhi, max_eq_right hlo]

/-- What is brought to no end of the range is left where it is. -/
theorem clamp_of_ne {s : Scheduler K} {v : K} (hlo : s.clamp v ≠ s.minimum)
    (hhi : s.clamp v ≠ s.maximum) : s.clamp v = v := by
  rw [clamp_eq] at hlo hhi ⊢
  rcases max_choice s.minimum (min v s.maximum) with h | h
  · exact absurd h hlo
  · rw [h] at hhi ⊢
    exact (min_choice v s.maximum).resolve_right hhi

/-- A range that is not empty, and steps that lead forward. -/
structure Regular (s : Scheduler K) : Prop where
  range : s.minimum ≤ s.maximum
  step : ∀ {step}, s.stepSize = some step → 0 < step

namespace Regular

variable {s : Scheduler K}

theorem clamp_mem (h : s.Regular) (v : K) : s.minimum ≤ s.clamp v ∧ s.clamp v ≤ s.maximum := by
  rw [clamp_eq]
  exact ⟨le_max_left _ _, max_le h.range (min_le_right _ _)⟩

theorem clamp_clamp (h : s.Regular) (v : K) : s.clamp (s.clamp v) = s.clamp v :=
  clamp_of_mem (h.clamp_mem v).1 (h.clamp_mem v).2

theorem point_mem (h : s.Regular) (v : K) : s.minimum ≤ s.point v ∧ s.point v ≤ s.maximum := by
  unfold point
  split
  · exact h.clamp_mem v
  · split
    · exact h.clamp_mem v
    · exact h.clamp_mem _

/-- The place of a value in the range decides. -/
theorem point_clamp (h : s.Regular) (v : K) : s.point (s.clamp v) = s.point v := by
  unfold point
  rw [h.clamp_clamp]

/-- An end of the range is a point of the grid. -/
theorem point_of_end (h : s.Regular) {v : K} (hv : v = s.minimum ∨ v = s.maximum) :
    s.point v = v := by
  have hclamp : s.clamp v = v := by
    rcases hv with rfl | rfl
    · exact clamp_of_mem le_rfl h.range
    · exact clamp_of_mem h.range le_rfl
  unfold point
  split
  · exact hclamp
  · rw [hclamp, if_pos hv]

variable [IsStrictOrderedRing K]

/-- **The grid keeps the order of values.** -/
theorem point_mono (h : s.Regular) : Monotone s.point := by
  intro v w hvw
  have hclamp : s.clamp v ≤ s.clamp w := s.clamp_mono hvw
  by_cases hends : s.clamp v = s.minimum ∨ s.clamp w = s.maximum
  · -- nothing lies beyond the ends of the range
    rcases hends with hv | hw
    · rw [← h.point_clamp v, hv, h.point_of_end (.inl rfl)]
      exact (h.point_mem w).1
    · rw [← h.point_clamp w, hw, h.point_of_end (.inr rfl)]
      exact (h.point_mem v).2
  · obtain ⟨hvmin, hwmax⟩ := not_or.mp hends
    cases hstep : s.stepSize with
    | none => rwa [point_of_none hstep, point_of_none hstep]
    | some step =>
      have hvends : ¬ (s.clamp v = s.minimum ∨ s.clamp v = s.maximum) := by
        rintro (hv | hv)
        · exact hvmin hv
        · exact hwmax (le_antisymm (h.clamp_mem w).2 (hv ▸ hclamp))
      have hwends : ¬ (s.clamp w = s.minimum ∨ s.clamp w = s.maximum) := by
        rintro (hw | hw)
        · exact hvmin (le_antisymm (hw ▸ hclamp) (h.clamp_mem v).1)
        · exact hwmax hw
      rw [point_of_step hstep hvends, point_of_step hstep hwends]
      refine s.clamp_mono (Exact.multiple_mono decimal_pos (add_le_add_right ?_ _))
      exact Exact.multiple_mono (h.step hstep) (sub_le_sub_right hclamp _)

/-- **A point of the grid stays where it is.** -/
theorem point_point (h : s.Regular) (v : K) : s.point (s.point v) = s.point v := by
  by_cases hends : s.point v = s.minimum ∨ s.point v = s.maximum
  · exact h.point_of_end hends
  · have hclamp : s.clamp (s.point v) = s.point v :=
      clamp_of_mem (h.point_mem v).1 (h.point_mem v).2
    cases hstep : s.stepSize with
    | none => rw [point_of_none hstep (s.point v), hclamp]
    | some step =>
      have hv : ¬ (s.clamp v = s.minimum ∨ s.clamp v = s.maximum) := fun hv => by
        rw [← h.point_clamp v, h.point_of_end hv] at hends
        exact hends hv
      obtain ⟨hmin, hmax⟩ := not_or.mp hends
      have htwice := point_of_step hstep hv
      rw [clamp_of_ne (htwice ▸ hmin) (htwice ▸ hmax)] at htwice
      rw [point_of_step hstep (hclamp.symm ▸ hends), hclamp,
        Exact.multiple_twice decimal_pos (h.step hstep) _ _ htwice.symm, hclamp]

end Regular

end Scheduler

end CanvasScript
