import CanvasScript.Scalar
import Mathlib.Algebra.Order.Ring.Int

/-!
# Laws of scalars

The operations of a scalar come without laws, since those of doubles obey few. The results of the
library ask for what they need and no more:

* `OrderedScalar`: comparisons are those of numbers, and a scalar that stands for no number compares
  with nothing. Doubles satisfy it with their infinities and without a number, and so does every
  ordered field.
* `Scalar.CountsTo α n`: the integers `0 … n` are exact. Doubles count to `2 ^ 53`, and an ordered
  field counts to every bound.

Results:
* `Scalar.mem_clamp` and `Scalar.mem_unitClamp`: what is clamped lies in the range, whatever is
  clamped.
* `CountsTo.least_one` and `CountsTo.clamp`: the amounts and positions of playback at integers.
-/

namespace CanvasScript

/-- Scalars that compare like numbers. A scalar is a number when it is at most itself. -/
class OrderedScalar (α : Type) [Scalar α] : Prop where
  le_self_left : ∀ {a b : α}, a ≤ b → a ≤ a
  le_self_right : ∀ {a b : α}, a ≤ b → b ≤ b
  le_of_lt : ∀ {a b : α}, a < b → a ≤ b
  le_of_not_lt : ∀ {a b : α}, a ≤ a → b ≤ b → ¬ a < b → b ≤ a

namespace Scalar

variable {α : Type} [Scalar α]

section Ordered

variable [OrderedScalar α]

/-- **A clamp ends in the range**: also for a scalar that stands for no number. -/
theorem mem_clamp {lo hi : α} (h : lo ≤ hi) (v : α) :
    lo ≤ greatest lo (least v hi) ∧ greatest lo (least v hi) ≤ hi := by
  have hlo : lo ≤ lo := OrderedScalar.le_self_left h
  have hhi : hi ≤ hi := OrderedScalar.le_self_right h
  unfold greatest
  split
  · rename_i hlt
    refine ⟨OrderedScalar.le_of_lt hlt, ?_⟩
    unfold least at hlt ⊢
    split
    · exact hhi
    · rename_i hv
      rw [if_neg hv] at hlt
      have hvv : v ≤ v := OrderedScalar.le_self_right (OrderedScalar.le_of_lt hlt)
      exact OrderedScalar.le_of_not_lt hhi hvv hv
  · exact ⟨hlo, h⟩

/-- **An amount of a step lies between nothing and all of it**, whatever it is brought from. -/
theorem mem_unitClamp (h : (zero : α) ≤ one) (t : α) :
    (zero : α) ≤ unitClamp t ∧ unitClamp t ≤ one := by
  have hgreatest : (zero : α) ≤ greatest zero t := by
    unfold greatest
    split
    · rename_i hlt
      exact OrderedScalar.le_of_lt hlt
    · exact OrderedScalar.le_self_left h
  unfold unitClamp least
  split
  · rename_i hlt
    exact ⟨hgreatest, OrderedScalar.le_of_lt hlt⟩
  · exact ⟨h, OrderedScalar.le_self_right h⟩

end Ordered

variable (α) in
/-- The integers from `0` to `n` are exact: their order, their differences and the products with
one. -/
structure CountsTo (n : Int) : Prop where
  lt_iff : ∀ {i j : Int}, 0 ≤ i → i ≤ n → 0 ≤ j → j ≤ n → ((ofInt i : α) < ofInt j ↔ i < j)
  sub : ∀ {i j : Int}, 0 ≤ i → i ≤ j → j ≤ n → (ofInt j : α) - ofInt i = ofInt (j - i)
  holds : ∀ {i : Int}, 0 ≤ i → i ≤ n → Scalar.holds (α := α) i = true
  round_mul_one : ∀ {i : Int}, 0 ≤ i → i ≤ n → Scalar.round ((ofInt i : α) * one) = .ok i

namespace CountsTo

variable {n : Int}

theorem mono (h : CountsTo α n) {m : Int} (hm : m ≤ n) : CountsTo α m where
  lt_iff hi hin hj hjn := h.lt_iff hi (hin.trans hm) hj (hjn.trans hm)
  sub hi hij hj := h.sub hi hij (hj.trans hm)
  holds hi hin := h.holds hi (hin.trans hm)
  round_mul_one hi hin := h.round_mul_one hi (hin.trans hm)

theorem zero_lt_one (h : CountsTo α n) (hn : 1 ≤ n) : (zero : α) < one :=
  (h.lt_iff (by omega) (by omega) (by omega) hn).mpr (by omega)

theorem not_zero_lt_zero (h : CountsTo α n) (hn : 0 ≤ n) : ¬ (zero : α) < zero :=
  fun hlt => absurd ((h.lt_iff (by omega) hn (by omega) hn).mp hlt) (by omega)

/-- An integer on a line of `n` steps is left where it is. -/
theorem clamp (h : CountsTo α n) {k : Int} (hk : 0 ≤ k) (hkn : k ≤ n) :
    greatest zero (least (ofInt k) (ofInt n)) = (ofInt k : α) := by
  have hn : (0 : Int) ≤ n := hk.trans hkn
  have hleast : least (ofInt k) (ofInt n) = (ofInt k : α) := by
    unfold least
    rw [if_neg]
    intro hlt
    have := (h.lt_iff hn le_rfl hk hkn).mp hlt
    omega
  rw [hleast]
  unfold greatest
  split
  · rfl
  · rename_i hlt
    have hk0 : ¬ 0 < k := fun h0 => hlt ((h.lt_iff le_rfl hn hk hkn).mpr h0)
    obtain rfl : k = 0 := by omega
    rfl

/-- Of a positive integer one is left, and of zero nothing. -/
theorem least_one (h : CountsTo α n) {m : Int} (hm : 0 ≤ m) (hmn : m ≤ n) (hn : 1 ≤ n) :
    least one (ofInt m) = if m = 0 then (zero : α) else one := by
  unfold least
  by_cases h0 : m = 0
  · subst h0
    exact if_pos (h.zero_lt_one hn)
  · rw [if_neg h0, if_neg]
    intro hlt
    have := (h.lt_iff hm hmn (by omega) hn).mp hlt
    omega

theorem unitClamp_one (h : CountsTo α n) (hn : 1 ≤ n) : unitClamp (one : α) = one := by
  have hg : greatest zero one = (one : α) := if_pos (h.zero_lt_one hn)
  unfold unitClamp
  rw [hg]
  exact (h.least_one (by omega) hn hn).trans (if_neg (by omega))

end CountsTo

end Scalar

end CanvasScript
