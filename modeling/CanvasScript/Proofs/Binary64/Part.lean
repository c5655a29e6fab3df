import CanvasScript.Proofs.Binary64.Integer

/-!
# Parts of one

A double is brought into `[0, 1]` to count as a part of one. It may be infinite or no number.

* `toRat?_unitClamp`: a double is brought to its `Decoded.part`.
* `part_mono`: **bringing doubles into `[0, 1]` keeps their order**.
-/

namespace CanvasScript.Binary64

/-- The part of one that a double is brought to: no number is brought to nothing. -/
def Decoded.part : Decoded → Rat
  | .finite negative m e => min 1 (max 0 (signed negative (magnitude m e)))
  | .infinite negative => if negative then 0 else 1
  | .undefined => 0

theorem part_mem (d : Decoded) : 0 ≤ d.part ∧ d.part ≤ 1 := by
  cases d with
  | finite negative m e => exact ⟨le_min zero_le_one (le_max_left _ _), min_le_left _ _⟩
  | infinite negative => cases negative <;> decide
  | undefined => decide

section

variable {t t' : Float}

theorem unitClamp_of_not_lt (h : ¬ Scalar.zero < t) : Scalar.unitClamp t = Scalar.zero := by
  have hlt : (Scalar.zero : Float) < Scalar.one := by decide +kernel
  unfold Scalar.unitClamp Scalar.greatest
  rw [if_neg h]
  exact if_pos hlt

theorem unitClamp_of_lt (h : Scalar.zero < t) :
    Scalar.unitClamp t = if t < Scalar.one then t else Scalar.one := by
  unfold Scalar.unitClamp Scalar.greatest
  rw [if_pos h]
  rfl

/-- **A double is brought to its part of one.** -/
theorem toRat?_unitClamp (t : Float) : toRat? (Scalar.unitClamp t) = .ok (decode t).part := by
  have hpositive := lt_iff_compare Scalar.zero t
  have hsmall := lt_iff_compare t Scalar.one
  obtain ⟨n₀, m₀, e₀, hzero, -, -⟩ := decode_of_toRat? toRat?_zero
  obtain ⟨n₁, m₁, e₁, hone, -, -⟩ := decode_of_toRat? toRat?_one
  cases ht : decode t with
  | finite negative m e =>
    have hvalue := toRat?_of_decode ht
    show _ = Except.ok (min 1 (max 0 (signed negative (magnitude m e))))
    by_cases hpos : 0 < signed negative (magnitude m e)
    · rw [unitClamp_of_lt ((lt_iff toRat?_zero hvalue).mpr hpos), max_eq_right hpos.le]
      split
      · rename_i hlt
        rw [hvalue, min_eq_right ((lt_iff hvalue toRat?_one).mp hlt).le]
      · rename_i hge
        rw [toRat?_one, min_eq_left (not_lt.mp fun h => hge ((lt_iff hvalue toRat?_one).mpr h))]
    · rw [unitClamp_of_not_lt fun h => hpos ((lt_iff toRat?_zero hvalue).mp h), toRat?_zero,
        max_eq_left (not_lt.mp hpos), min_eq_right zero_le_one]
  | infinite negative =>
    rw [ht, hzero, compare_infinite] at hpositive
    rw [ht, hone, compare_swap, compare_infinite] at hsmall
    cases negative with
    | false =>
      have hlarge : ¬ t < Scalar.one := fun h => by cases hsmall.mp h
      rw [unitClamp_of_lt (hpositive.mpr rfl), if_neg hlarge, toRat?_one]
      rfl
    | true =>
      have hnot : ¬ Scalar.zero < t := fun h => by cases hpositive.mp h
      rw [unitClamp_of_not_lt hnot, toRat?_zero]
      rfl
  | undefined =>
    rw [ht, compare_undefined] at hpositive
    have hnot : ¬ Scalar.zero < t := fun h => by cases hpositive.mp h
    rw [unitClamp_of_not_lt hnot, toRat?_zero]
    rfl

/-- **What a double is brought to keeps the order.** -/
theorem part_mono (h : t ≤ t') : (decode t).part ≤ (decode t').part := by
  obtain ⟨hnumber, hnumber'⟩ := numbers_of_le h
  have hle := (le_iff_compare t t').mp h
  cases ht : decode t with
  | undefined => exact absurd (congrArg Decoded.unpacked ht) hnumber
  | infinite negative =>
    cases negative with
    | true => exact (part_mem _).1
    | false =>
      cases ht' : decode t' with
      | undefined => exact absurd (congrArg Decoded.unpacked ht') hnumber'
      | infinite negative =>
        cases negative with
        | true =>
          rw [ht, ht'] at hle
          cases hle
        | false => exact le_rfl
      | finite n m e =>
        rw [ht, ht', compare_swap, compare_infinite] at hle
        cases hle
  | finite n m e =>
    cases ht' : decode t' with
    | undefined => exact absurd (congrArg Decoded.unpacked ht') hnumber'
    | infinite negative =>
      cases negative with
      | true =>
        rw [ht, ht', compare_infinite] at hle
        cases hle
      | false => exact (part_mem _).2
    | finite n' m' e' =>
      have hvalues := (le_iff (toRat?_of_decode ht) (toRat?_of_decode ht')).mp h
      exact min_le_min_left 1 (max_le_max_left 0 hvalues)

end

end CanvasScript.Binary64
