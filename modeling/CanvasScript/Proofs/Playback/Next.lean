import CanvasScript.Playback.Scheduler
import CanvasScript.Proofs.Except
import CanvasScript.Proofs.Scalar.Laws

/-!
# The integers next to a position

A step (`step_forward` and `step_backward`) goes to the integer next to where a scheduler stands.
Close to an integer it passes that one by, so the integer it goes to may be further than the next.

* `LocatesTo α n`: rounding a value between `0` and `n` finds integers on both sides of it.
* `exists_nextInteger`: **the integer after a value lies beyond it**, or at the end of the range.
* `exists_previousInteger`: and so does the one before.
-/

namespace CanvasScript

namespace Scheduler

open Scalar

variable {α : Type} [Scalar α]

variable (α) in
/-- The values from `0` to `n` have integers around them, which are exact up to the one after `n`.
-/
structure LocatesTo (n : Int) : Prop where
  counts : CountsTo α (n + 1)
  add_one : ∀ {i : Int}, 0 ≤ i → i ≤ n → (ofInt i : α) + one = ofInt (i + 1)
  not_zero_lt : ¬ (zero : α) < zero - one
  round : ∀ {v : α}, zero ≤ v → v ≤ ofInt n →
    ∃ i, Scalar.round v = .ok i ∧ 0 ≤ i ∧ i ≤ n ∧ v < ofInt (i + 1) ∧ (0 < i → ofInt (i - 1) < v)
  ceil : ∀ {v : α}, zero ≤ v → v ≤ ofInt n →
    ∃ i, Scalar.ceil v = .ok i ∧ 0 ≤ i ∧ i ≤ n ∧ v ≤ ofInt i
  floor : ∀ {v : α}, zero ≤ v → v ≤ ofInt n →
    ∃ i, Scalar.floor v = .ok i ∧ 0 ≤ i ∧ i ≤ n ∧ ofInt i ≤ v
  near : ∀ {v : α} {i j : Int}, 0 ≤ j → j ≤ n → ofInt j ≤ v → v ≤ ofInt j →
    Scalar.round v = .ok i → Scalar.abs (v - ofInt i) < integerTolerance
  lt_of_le_of_lt : ∀ {v : α} {i j : Int}, 0 ≤ i → i ≤ n → 0 ≤ j → j ≤ n →
    ofInt i ≤ v → v < ofInt j → i < j
  lt_of_lt_of_le : ∀ {v : α} {i j : Int}, 0 ≤ i → i ≤ n → 0 ≤ j → j ≤ n →
    ofInt i < v → v ≤ ofInt j → i < j

namespace LocatesTo

variable {n : Int}

theorem lt_iff (h : LocatesTo α n) {i j : Int} (hi : 0 ≤ i) (hin : i ≤ n + 1) (hj : 0 ≤ j)
    (hjn : j ≤ n + 1) : (ofInt i : α) < ofInt j ↔ i < j :=
  h.counts.lt_iff hi hin hj hjn

/-- Of an integer and the end of the range the smaller one is left. -/
theorem least_ofInt (h : LocatesTo α n) (hn : 0 ≤ n) {i : Int} (hi : 0 ≤ i) (hin : i ≤ n + 1) :
    least (ofInt n) (ofInt i) = (ofInt (min i n) : α) := by
  unfold least
  have hlt := h.lt_iff hi hin hn (by omega)
  by_cases hsmaller : i < n
  · rw [if_pos (hlt.mpr hsmaller), min_eq_left hsmaller.le]
  · rw [if_neg (mt hlt.mp hsmaller), min_eq_right (not_lt.mp hsmaller)]

/-- An integer of the range is not below its start. -/
theorem greatest_ofInt (h : LocatesTo α n) {i : Int} (hi : 0 ≤ i) (hin : i ≤ n) :
    greatest zero (ofInt i) = (ofInt i : α) := by
  unfold greatest
  have hlt := h.lt_iff le_rfl (by omega) hi (by omega)
  by_cases hpos : 0 < i
  · exact if_pos (hlt.mpr hpos)
  · obtain rfl : i = 0 := by omega
    exact if_neg (mt hlt.mp hpos)

section

variable [OrderedScalar α]

theorem ofInt_le_self (h : LocatesTo α n) {i : Int} (hi : 0 ≤ i) (hin : i ≤ n) :
    (ofInt i : α) ≤ ofInt i := by
  have hlt : (ofInt i : α) < ofInt (i + 1) :=
    (h.lt_iff hi (by omega) (by omega) (by omega)).mpr (by omega)
  exact OrderedScalar.le_self_left (OrderedScalar.le_of_lt hlt)

theorem ofInt_le (h : LocatesTo α n) {i j : Int} (hi : 0 ≤ i) (hij : i ≤ j) (hjn : j ≤ n) :
    (ofInt i : α) ≤ ofInt j := by
  refine OrderedScalar.le_of_not_lt (h.ofInt_le_self (by omega) hjn)
    (h.ofInt_le_self hi (by omega)) fun hlt => ?_
  have := (h.lt_iff (by omega) (by omega) hi (by omega)).mp hlt
  omega

/-- A value of the range lies before an integer or not. -/
theorem lt_or_le (h : LocatesTo α n) {v : α} (hv : zero ≤ v) {i : Int} (hi : 0 ≤ i)
    (hin : i ≤ n) : v < ofInt i ∨ ofInt i ≤ v := by
  by_cases hlt : v < ofInt i
  · exact .inl hlt
  · exact .inr (OrderedScalar.le_of_not_lt (OrderedScalar.le_self_right hv)
      (h.ofInt_le_self hi hin) hlt)

theorem lt_or_ge (h : LocatesTo α n) {v : α} (hv : zero ≤ v) {i : Int} (hi : 0 ≤ i)
    (hin : i ≤ n) : ofInt i < v ∨ v ≤ ofInt i := by
  by_cases hlt : ofInt i < v
  · exact .inl hlt
  · exact .inr (OrderedScalar.le_of_not_lt (h.ofInt_le_self hi hin)
      (OrderedScalar.le_self_right hv) hlt)

/-- **The integer after a value lies beyond it**, or at the end of the range. -/
theorem exists_nextInteger (h : LocatesTo α n) (hn : 0 ≤ n) {v : α} (hv : zero ≤ v)
    (hvn : v ≤ ofInt n) : ∃ target k, nextInteger v = .ok target ∧
      least (ofInt n) target = ofInt k ∧ 0 ≤ k ∧ k ≤ n ∧
      (v < ofInt k ∨ k = n ∧ ofInt n ≤ v) := by
  obtain ⟨i, hround, hi, hin, hafter, -⟩ := h.round hv hvn
  by_cases hnear : Scalar.abs (v - ofInt i) < integerTolerance
  · refine ⟨ofInt (i + 1), min (i + 1) n, ?_, ?_, by omega, by omega, ?_⟩
    · exact bind_eq_ok.mpr ⟨i, hround, (if_pos hnear).trans (congrArg Except.ok (h.add_one hi hin))⟩
    · exact h.least_ofInt hn (by omega) (by omega)
    · rcases lt_or_eq_of_le hin with hlt | rfl
      · left
        rw [min_eq_left (by omega)]
        exact hafter
      · rw [min_eq_right (by omega)]
        exact (h.lt_or_le hv hn le_rfl).imp_right fun hle => ⟨rfl, hle⟩
  · obtain ⟨c, hceil, hc, hcn, hle⟩ := h.ceil hv hvn
    refine ⟨ofInt c, c, ?_, ?_, hc, hcn, .inl ?_⟩
    · exact bind_eq_ok.mpr ⟨i, hround, (if_neg hnear).trans (bind_eq_ok.mpr ⟨c, hceil, rfl⟩)⟩
    · rw [h.least_ofInt hn hc (by omega), min_eq_left hcn]
    · exact (h.lt_or_le hv hc hcn).resolve_right fun hge => hnear (h.near hc hcn hge hle hround)

/-- **The integer before a value lies beyond it**, or at the start of the range. -/
theorem exists_previousInteger (h : LocatesTo α n) {v : α} (hv : zero ≤ v)
    (hvn : v ≤ ofInt n) : ∃ target k, previousInteger v = .ok target ∧
      greatest zero target = ofInt k ∧ 0 ≤ k ∧ k ≤ n ∧ (ofInt k < v ∨ k = 0 ∧ v ≤ zero) := by
  obtain ⟨i, hround, hi, hin, -, hbefore⟩ := h.round hv hvn
  by_cases hnear : Scalar.abs (v - ofInt i) < integerTolerance
  · have hprevious : previousInteger v = .ok (ofInt i - one) :=
      bind_eq_ok.mpr ⟨i, hround, if_pos hnear⟩
    rcases lt_or_eq_of_le hi with hpos | rfl
    · refine ⟨_, i - 1, hprevious, ?_, by omega, by omega, .inl (hbefore hpos)⟩
      rw [one, h.counts.sub (by omega) (by omega) (by omega)]
      exact h.greatest_ofInt (by omega) (by omega)
    · refine ⟨_, 0, hprevious, if_neg h.not_zero_lt, le_rfl, hin, ?_⟩
      exact (h.lt_or_ge hv le_rfl hin).imp_right fun hle => ⟨rfl, hle⟩
  · obtain ⟨f, hfloor, hf, hfn, hle⟩ := h.floor hv hvn
    refine ⟨ofInt f, f, ?_, h.greatest_ofInt hf hfn, hf, hfn, .inl ?_⟩
    · exact bind_eq_ok.mpr ⟨i, hround, (if_neg hnear).trans (bind_eq_ok.mpr ⟨f, hfloor, rfl⟩)⟩
    · exact (h.lt_or_ge hv hf hfn).resolve_right fun hge => hnear (h.near hf hfn hle hge hround)

end

end LocatesTo

end Scheduler

end CanvasScript
