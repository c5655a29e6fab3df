import CanvasScript.Playback.FrameClock
import CanvasScript.Proofs.Scalar.Exact
import Mathlib.Algebra.Order.Floor.Semiring

/-!
# The frame clock without rounding errors

The frames of a clock (`frame_times`) lie on a grid of times, and so do the due times of what it
presents (`should_present`). Both grids lead forward, whatever rates a clock is made with.

* `FrameClock.timeOf_lt_iff`: **before the end of a time lie as many frames as fit into it**.
* `FrameClock.FirstAfter period due now next`: a due time is the first one after `now` on the grid
  that starts with `due`.
* `FrameClock.exists_present`: **a clock presents what is due**, and then catches up: the next due
  time is the first one after that frame, however late the frame was.

Out of scope: the rounding of doubles.
-/

namespace CanvasScript

open Scalar
open scoped Exact

namespace FrameClock

variable {K : Type} [Field K] [LinearOrder K] [FloorRing K] [ScalarFunctions K]

/-! ## Rates -/

/-- Both rates lead forward. -/
structure Regular (clock : FrameClock K) : Prop where
  targetRate : 0 < clock.targetRate.toScalar
  presentRate : ∀ {rate}, clock.presentRate = some rate → 0 < rate.toScalar

section

variable [IsStrictOrderedRing K] {clock : FrameClock K} {target : Number K}
  {presented : Option (Number K)}

/-- **A clock that is made leads forward**, and has the rate of frames that it is made with. -/
theorem regular_of_ofRates (h : ofRates target presented = .ok clock) :
    clock.Regular ∧ clock.targetRate = target := by
  unfold ofRates at h
  split at h
  · cases h
  · rename_i htarget
    have htarget := Exact.toScalar_pos (Bool.eq_false_iff.mpr htarget)
    split at h
    · cases h
      exact ⟨⟨htarget, nofun⟩, rfl⟩
    · rename_i rate
      split at h
      · cases h
      · rename_i hrate
        have hrate := Exact.toScalar_pos (Bool.eq_false_iff.mpr hrate)
        split at h
        · cases h
          refine ⟨⟨htarget, ?_⟩, rfl⟩
          rintro _ ⟨⟩
          exact htarget
        · cases h
          refine ⟨⟨htarget, ?_⟩, rfl⟩
          rintro _ ⟨⟩
          exact hrate

theorem period_pos {rate : Number K} (h : 0 < rate.toScalar) : 0 < period rate := by
  have hsecond : (0 : K) < (1000 : Int) := by norm_num
  exact div_pos hsecond h

theorem Regular.presentTime_pos (h : clock.Regular) : 0 < clock.presentTime := by
  unfold presentTime
  cases hrate : clock.presentRate with
  | none => exact period_pos h.targetRate
  | some rate => exact period_pos (h.presentRate hrate)

end

/-! ## Times of frames -/

section

theorem timeOf_eq (clock : FrameClock K) (start : K) (frame : Nat) :
    clock.timeOf start frame = start + frame * (1000 / clock.targetRate.toScalar) := by
  show start + ((frame : Int) : K) * (((1000 : Int) : K) / clock.targetRate.toScalar) = _
  norm_num

/-- The first frame is at the start. -/
theorem timeOf_zero (clock : FrameClock K) (start : K) : clock.timeOf start 0 = start := by
  rw [timeOf_eq, Nat.cast_zero, zero_mul, add_zero]

variable [IsStrictOrderedRing K] {clock : FrameClock K}

/-- **Before the end of a time lie as many frames as fit into it.** -/
theorem timeOf_lt_iff (h : clock.Regular) (start duration : K) (frame : Nat) :
    clock.timeOf start frame < start + duration ↔
      frame < ⌈duration * clock.targetRate.toScalar / 1000⌉₊ := by
  have hsecond : (0 : K) < 1000 := by norm_num
  rw [timeOf_eq, add_lt_add_iff_left, Nat.lt_ceil, lt_div_iff₀ hsecond, ← mul_div_assoc,
    div_lt_iff₀ h.targetRate]

end

/-! ## Due times -/

/-- A due time is the first one after `now` on the grid of a period that starts with `due`. -/
structure FirstAfter (period due now next : K) : Prop where
  grid : ∃ steps : Nat, next = due + steps * period
  after : now < next
  /-- The one before is not after `now`. -/
  first : due ≤ now → next ≤ now + period

variable [IsStrictOrderedRing K] {clock : FrameClock K} {period due now : K}

/-- Steps that reach beyond `now` end at the first due time after it. -/
theorem firstAfter_advance (hperiod : 0 < period) (fuel : Nat)
    (hreach : now < due + fuel * period) :
    FirstAfter period due now (advance period now fuel due) := by
  induction fuel generalizing due with
  | zero =>
    rw [Nat.cast_zero, zero_mul, add_zero] at hreach
    exact ⟨⟨0, by simp [advance]⟩, hreach, fun hdue => absurd hreach (not_lt.mpr hdue)⟩
  | succ fuel ih =>
    have hmoves : due < due + period := lt_add_of_pos_right due hperiod
    unfold advance
    by_cases hdue : due ≤ now
    · rw [if_pos ⟨hdue, hmoves⟩]
      rw [Nat.cast_add, Nat.cast_one, add_mul, one_mul, add_comm (fuel * period),
        ← add_assoc] at hreach
      obtain ⟨⟨steps, hgrid⟩, hafter, hfirst⟩ := ih hreach
      refine ⟨⟨steps + 1, ?_⟩, hafter, fun _ => ?_⟩
      · rw [hgrid]
        push_cast
        ring
      · -- either a step further is the end, or there is one that is not after `now`
        by_cases hnext : due + period ≤ now
        · exact hfirst hnext
        · have hstays : advance period now fuel (due + period) = due + period := by
            cases fuel with
            | zero => rfl
            | succ fuel => exact if_neg fun h => hnext h.1
          rw [hstays]
          exact add_le_add_left hdue period
    · rw [if_neg fun h => hdue h.1]
      exact ⟨⟨0, by simp⟩, not_le.mp hdue, fun h => absurd h hdue⟩

/-- As many steps as a clock allows for reach beyond `now`. -/
theorem lt_stepBound (hperiod : 0 < period) (due now : K) :
    now < due + stepBound period now due * period := by
  have hbound : stepBound period now due = 2 * ⌈(now - due) / period⌉.toNat + 2 := rfl
  have hceil : (now - due) / period ≤ ⌈(now - due) / period⌉.toNat :=
    (Int.le_ceil _).trans (by exact_mod_cast Int.self_le_toNat _)
  rw [div_le_iff₀ hperiod] at hceil
  have hsteps : (⌈(now - due) / period⌉.toNat : K) < stepBound period now due := by
    rw [hbound]
    exact_mod_cast (by omega)
  linarith [mul_lt_mul_of_pos_right hsteps hperiod]

/-- **A clock presents what is due, and then catches up.** -/
theorem exists_present (h : clock.Regular) (now : K) :
    ∃ next, clock.present now =
        (decide (clock.nextDue.getD now ≤ now), { clock with nextDue := some next }) ∧
      FirstAfter clock.presentTime (clock.nextDue.getD now) now next := by
  unfold present
  by_cases hdue : now < clock.nextDue.getD now
  · refine ⟨clock.nextDue.getD now, ?_, ⟨0, by simp⟩, hdue, fun hle => ?_⟩
    · rw [decide_eq_false (not_le.mpr hdue)]
      exact if_pos hdue
    · exact absurd hdue (not_lt.mpr hle)
  · refine ⟨_, ?_, firstAfter_advance h.presentTime_pos _ (lt_stepBound h.presentTime_pos _ now)⟩
    rw [decide_eq_true (not_lt.mp hdue)]
    exact if_neg hdue

end FrameClock

end CanvasScript
