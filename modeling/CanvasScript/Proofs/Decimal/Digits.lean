import CanvasScript.Decimal.Digits
import Mathlib.Algebra.Order.Ring.Nat
import Mathlib.Tactic.Ring

/-!
# Digits and their value

* `value_append` and `value_padLeft`: the value of digits that are put together.
* `head_digits`: a positive natural is written without zeros in front.
* `pow_le_of_digits` and `lt_pow_of_digits`: a natural lies between the powers of ten that the count
  of its digits tells.
-/

namespace CanvasScript.Decimal

theorem isDigit_digit {n : Nat} (h : n < 10) : (digit n).isDigit = true := by
  have hall : ∀ m : Fin 10, (digit m.1).isDigit = true := by decide
  exact hall ⟨n, h⟩

theorem isDigit_of_mem_digits {n : Nat} : ∀ c ∈ digits n, c.isDigit = true := by
  induction n using Nat.strongRecOn with
  | _ n ih =>
    intro c hc
    rw [digits] at hc
    split at hc
    · rename_i hn
      rw [List.mem_singleton.mp hc]
      exact isDigit_digit hn
    · rcases List.mem_append.mp hc with hc | hc
      · exact ih (n / 10) (by omega) c hc
      · rw [List.mem_singleton.mp hc]
        exact isDigit_digit (by omega)

theorem foldl_value (s : List Char) (n : Nat) :
    s.foldl (fun n c => n * 10 + (c.toNat - 48)) n = n * 10 ^ s.length + value s := by
  induction s generalizing n with
  | nil => simp [value]
  | cons c s ih =>
    unfold value at ih ⊢
    rw [List.foldl_cons, ih, List.foldl_cons, ih (0 * 10 + _), List.length_cons]
    ring

theorem value_append (s t : List Char) : value (s ++ t) = value s * 10 ^ t.length + value t := by
  have h := foldl_value t (value s)
  rw [← h]
  unfold value
  rw [List.foldl_append]

@[simp] theorem value_zeros (k : Nat) : value (List.replicate k '0') = 0 := by
  induction k with
  | zero => rfl
  | succ k ih => exact ih

/-- Zeros in front leave the value. -/
@[simp] theorem value_padLeft (width : Nat) (s : List Char) :
    value (padLeft width s) = value s := by
  unfold padLeft
  rw [value_append, value_zeros, Nat.zero_mul, Nat.zero_add]

theorem lt_pow_of_digits (n : Nat) : n < 10 ^ (digits n).length := by
  induction n using Nat.strongRecOn with
  | _ n ih =>
    rw [digits]
    split
    · rename_i hn
      exact hn
    · have hlt := ih (n / 10) (by omega)
      rw [List.length_append, List.length_singleton, Nat.pow_succ]
      omega

theorem pow_le_of_digits {n : Nat} (h : 0 < n) : 10 ^ ((digits n).length - 1) ≤ n := by
  induction n using Nat.strongRecOn with
  | _ n ih =>
    rw [digits]
    split
    · exact h
    · have hle := ih (n / 10) (by omega) (by omega)
      obtain ⟨k, hk⟩ := Nat.exists_eq_succ_of_ne_zero
        (List.length_pos_iff.mpr (digits_ne_nil (n / 10))).ne'
      rw [hk, Nat.succ_sub_one] at hle
      rw [List.length_append, List.length_singleton, Nat.add_sub_cancel, hk, Nat.pow_succ]
      omega

/-- The digits of a positive natural do not start with a zero. -/
theorem head_digits {n : Nat} (h : 0 < n) : ∃ c rest, digits n = c :: rest ∧ c ≠ '0' := by
  induction n using Nat.strongRecOn with
  | _ n ih =>
    rw [digits]
    split
    · rename_i hn
      have hall : ∀ m : Fin 10, 0 < m.1 → digit m.1 ≠ '0' := by decide
      exact ⟨_, [], rfl, hall ⟨n, hn⟩ h⟩
    · obtain ⟨c, rest, hdigits, hc⟩ := ih (n / 10) (by omega) (by omega)
      exact ⟨c, rest ++ _, by rw [hdigits]; rfl, hc⟩

/-- A natural has no more decimal digits than binary ones. -/
theorem length_digits_le {n k : Nat} (hk : 0 < k) (h : n < 2 ^ k) : (digits n).length ≤ k := by
  rcases Nat.eq_zero_or_pos n with rfl | hpos
  · rw [digits]
    exact hk
  · have hdigits : 10 ^ ((digits n).length - 1) < 10 ^ k :=
      calc 10 ^ ((digits n).length - 1)
          ≤ n := pow_le_of_digits hpos
        _ < 2 ^ k := h
        _ ≤ 10 ^ k := Nat.pow_le_pow_left (by decide) k
    have hlength := (Nat.pow_lt_pow_iff_right (by decide)).mp hdigits
    omega

end CanvasScript.Decimal
