import CanvasScript.Rounding
import Mathlib.Algebra.Order.Field.Power
import Mathlib.Algebra.Order.Floor.Ring
import Mathlib.Data.Rat.Floor
import Mathlib.Tactic.FieldSimp
import Mathlib.Tactic.Linarith
import Mathlib.Tactic.NormNum
import Mathlib.Tactic.Ring

/-!
# Bounds on rounding

* `halfEven_le` and `le_halfEven`: **rounding to an integer passes no integer**.
* `halfEven_eq`: and it ends at the nearest one.
* `log2_eq`: **a positive rational has one binade**.
* `nearest_le`: **rounding to binary digits passes no integer of as many digits**.
* `nearest_natCast`: an integer of as many digits stays as it is.
-/

namespace CanvasScript.Rounding

/-! ## Rounding to an integer -/

theorem halfEven_le_floor_add_one (x : Rat) : halfEven x ≤ x.floor + 1 := by
  unfold halfEven
  simp only
  split
  · omega
  · split
    · omega
    · split <;> omega

theorem floor_le_halfEven (x : Rat) : x.floor ≤ halfEven x := by
  unfold halfEven
  simp only
  split
  · omega
  · split
    · omega
    · split <;> omega

theorem le_halfEven {x : Rat} {n : Int} (h : (n : Rat) ≤ x) : n ≤ halfEven x :=
  (Rat.le_floor_iff.mpr h).trans (floor_le_halfEven x)

theorem halfEven_le {x : Rat} {n : Int} (h : x ≤ n) : halfEven x ≤ n := by
  rcases h.lt_or_eq with hlt | rfl
  · have hfloor : x.floor < n := Rat.floor_lt_iff.mpr hlt
    exact (halfEven_le_floor_add_one x).trans hfloor
  · exact (halfEven_intCast n).le

/-- **Rounding to an integer keeps the order.** -/
theorem halfEven_mono {x y : Rat} (h : x ≤ y) : halfEven x ≤ halfEven y := by
  have hfloor : x.floor ≤ y.floor := Rat.le_floor_iff.mpr ((Rat.floor_le x).trans h)
  rcases hfloor.lt_or_eq with hlt | heq
  · exact (halfEven_le_floor_add_one x).trans (le_trans hlt (floor_le_halfEven y))
  · unfold halfEven
    simp only [heq]
    split_ifs <;> first | omega | linarith

/-- **The nearest integer**, and of two the even one. -/
theorem halfEven_eq {x : Rat} {n : Int} (hl : (n : Rat) - 1 / 2 ≤ x) (hu : x ≤ n + 1 / 2)
    (htie : n % 2 = 0 ∨ (n : Rat) - 1 / 2 < x ∧ x < n + 1 / 2) : halfEven x = n := by
  rcases le_or_gt (n : Rat) x with hx | hx
  · have hfloor : x.floor = n :=
      le_antisymm (Int.lt_add_one_iff.mp (Rat.floor_lt_iff.mpr (by push_cast; linarith)))
        (Rat.le_floor_iff.mpr hx)
    unfold halfEven
    simp only [hfloor]
    rcases htie with heven | ⟨-, hlt⟩
    · rw [if_pos heven, if_neg (show ¬ 1 / 2 < x - n by linarith), ite_self]
    · exact if_pos (by linarith)
  · have hfloor : x.floor = n - 1 :=
      le_antisymm (Int.lt_add_one_iff.mp (Rat.floor_lt_iff.mpr (by push_cast; linarith)))
        (Rat.le_floor_iff.mpr (by push_cast; linarith))
    unfold halfEven
    simp only [hfloor]
    rw [if_neg (by push_cast; linarith)]
    rcases htie with heven | ⟨hlt, -⟩
    · rw [if_neg (show ¬ (n - 1) % 2 = 0 by omega), ite_self, sub_add_cancel]
    · rw [if_pos (by push_cast; linarith), sub_add_cancel]

/-! ## Binades -/

/-- The quotient of two binades is one of two. -/
theorem log2_num_den {x : Rat} (hx : 0 < x) :
    (2 : Rat) ^ ((x.num.natAbs.log2 : Int) - x.den.log2 - 1) < x ∧
      x < (2 : Rat) ^ ((x.num.natAbs.log2 : Int) - x.den.log2 + 1) := by
  obtain ⟨n, hn⟩ : ∃ n : Nat, x.num = n := ⟨x.num.toNat, by have := Rat.num_pos.mpr hx; omega⟩
  have hn0 : n ≠ 0 := by
    have := Rat.num_pos.mpr hx
    omega
  have hden : (0 : Rat) < x.den := by exact_mod_cast x.den_pos
  have hmul : x * x.den = n := by rw [Rat.mul_den_eq_num, hn, Int.cast_natCast]
  have hnl : (2 : Rat) ^ n.log2 ≤ n := by exact_mod_cast Nat.log2_self_le hn0
  have hnu : (n : Rat) < 2 ^ (n.log2 + 1) := by exact_mod_cast Nat.lt_log2_self
  have hdl : (2 : Rat) ^ x.den.log2 ≤ x.den := by exact_mod_cast Nat.log2_self_le x.den_nz
  have hdu : (x.den : Rat) < 2 ^ (x.den.log2 + 1) := by exact_mod_cast Nat.lt_log2_self
  rw [hn, Int.natAbs_natCast]
  refine ⟨lt_of_mul_lt_mul_right ?_ hden.le, lt_of_mul_lt_mul_right ?_ hden.le⟩
  · calc (2 : Rat) ^ ((n.log2 : Int) - x.den.log2 - 1) * x.den
        < 2 ^ ((n.log2 : Int) - x.den.log2 - 1) * 2 ^ (x.den.log2 + 1) :=
          mul_lt_mul_of_pos_left hdu (by positivity)
      _ = 2 ^ n.log2 := by
          rw [← zpow_natCast, ← zpow_natCast, ← zpow_add₀ two_ne_zero]
          congr 1
          push_cast
          ring
      _ ≤ n := hnl
      _ = x * x.den := hmul.symm
  · calc x * x.den
        = n := hmul
      _ < 2 ^ (n.log2 + 1) := hnu
      _ = 2 ^ ((n.log2 : Int) - x.den.log2 + 1) * 2 ^ x.den.log2 := by
          rw [← zpow_natCast, ← zpow_natCast, ← zpow_add₀ two_ne_zero]
          congr 1
          push_cast
          ring
      _ ≤ 2 ^ ((n.log2 : Int) - x.den.log2 + 1) * x.den :=
          mul_le_mul_of_nonneg_left hdl (by positivity)

theorem two_zpow_log2_le {x : Rat} (hx : 0 < x) : (2 : Rat) ^ log2 x ≤ x := by
  unfold log2
  simp only
  split
  · exact (log2_num_den hx).1.le
  · rename_i h
    exact not_lt.mp h

theorem lt_two_zpow_log2 {x : Rat} (hx : 0 < x) : x < (2 : Rat) ^ (log2 x + 1) := by
  unfold log2
  simp only
  split
  · rename_i h
    rwa [sub_add_cancel]
  · exact (log2_num_den hx).2

/-- **A positive rational has one binade.** -/
theorem log2_eq {x : Rat} {e : Int} (hl : (2 : Rat) ^ e ≤ x) (hu : x < (2 : Rat) ^ (e + 1)) :
    log2 x = e := by
  have hx : 0 < x := lt_of_lt_of_le (by positivity) hl
  have h₁ : (2 : Rat) ^ log2 x < 2 ^ (e + 1) := (two_zpow_log2_le hx).trans_lt hu
  have h₂ : (2 : Rat) ^ e < 2 ^ (log2 x + 1) := hl.trans_lt (lt_two_zpow_log2 hx)
  rw [zpow_lt_zpow_iff_right₀ one_lt_two] at h₁ h₂
  omega

theorem log2_lt {x : Rat} {e : Int} (hx : 0 < x) (h : x < (2 : Rat) ^ e) : log2 x < e := by
  have := (two_zpow_log2_le hx).trans_lt h
  rwa [zpow_lt_zpow_iff_right₀ one_lt_two] at this

/-! ## Rounding to binary digits -/

theorem nearest_nonneg (bits : Nat) {x : Rat} (hx : 0 ≤ x) : 0 ≤ nearest bits x := by
  unfold nearest
  split
  · exact le_refl 0
  · rw [if_neg (not_lt.mpr hx)]
    have hquot : ((0 : Int) : Rat) ≤ x / 2 ^ (log2 x + 1 - (bits : Int)) := by
      rw [Int.cast_zero]
      positivity
    have : (0 : Rat) ≤ halfEven (x / 2 ^ (log2 x + 1 - (bits : Int))) := by
      exact_mod_cast le_halfEven hquot
    unfold toMultiple
    positivity

/-- **Rounding to binary digits passes no integer of as many digits.** -/
theorem nearest_le (bits : Nat) {n : Nat} {x : Rat} (hx : 0 ≤ x) (hn : n < 2 ^ bits) (h : x ≤ n) :
    nearest bits x ≤ n := by
  unfold nearest
  split
  · exact_mod_cast n.zero_le
  · rename_i h0
    rw [if_neg (not_lt.mpr hx)]
    have hpos : 0 < x := lt_of_le_of_ne hx (Ne.symm h0)
    have hlog : log2 x < bits := by
      refine log2_lt hpos (h.trans_lt ?_)
      rw [zpow_natCast]
      exact_mod_cast hn
    obtain ⟨k, hk⟩ : ∃ k : Nat, log2 x + 1 - (bits : Int) = -(k : Int) :=
      ⟨((bits : Int) - 1 - log2 x).toNat, by omega⟩
    rw [hk, toMultiple, zpow_neg, zpow_natCast, div_inv_eq_mul]
    have hround : halfEven (x * 2 ^ k) ≤ ((n * 2 ^ k : Nat) : Int) := by
      apply halfEven_le
      push_cast
      exact mul_le_mul_of_nonneg_right h (by positivity)
    have hcast : ((halfEven (x * 2 ^ k) : Int) : Rat) ≤ n * 2 ^ k := by exact_mod_cast hround
    rw [← div_eq_mul_inv, div_le_iff₀ (by positivity)]
    exact hcast

/-- An integer of as many binary digits is not rounded. -/
theorem nearest_natCast {bits n : Nat} (hn : n < 2 ^ bits) : nearest bits (n : Rat) = n := by
  rcases n.eq_zero_or_pos with rfl | hpos
  · rw [Nat.cast_zero, nearest_zero]
  have hcast : (0 : Rat) < n := by exact_mod_cast hpos
  have hlog : log2 (n : Rat) < bits := by
    refine log2_lt hcast ?_
    rw [zpow_natCast]
    exact_mod_cast hn
  obtain ⟨k, hk⟩ : ∃ k : Nat, log2 (n : Rat) + 1 - (bits : Int) = -(k : Int) :=
    ⟨((bits : Int) - 1 - log2 (n : Rat)).toNat, by omega⟩
  have hshift : (n : Rat) / ((2 : Rat) ^ k)⁻¹ = ((n * 2 ^ k : Nat) : Int) := by
    rw [div_inv_eq_mul]
    push_cast
    rfl
  unfold nearest
  rw [if_neg hcast.ne', if_neg hcast.le.not_gt, hk, toMultiple, zpow_neg, zpow_natCast, hshift,
    halfEven_intCast]
  push_cast
  exact mul_inv_cancel_right₀ (by positivity) _

end CanvasScript.Rounding
