import CanvasScript.Number
import CanvasScript.Proofs.Scalar.Laws
import Mathlib.Algebra.Order.Floor.Ring
import Mathlib.Tactic.Linarith
import Mathlib.Tactic.Ring

/-!
# Exact scalars

Every ordered field with floors is a type of scalars without rounding: the rationals, the reals.
The functions that a field does not determine (`sin`, `cos`, the root and half a turn) are
arbitrary, and so are the texts of its scalars.

* `Exact.instScalar` is the scalar class of such a field, and `Exact.instWritten` the one with
  texts.
* `Exact.nearest_halfEven` and `Exact.halfEven_mono`: rounding ends at the nearest integer, and
  keeps the order.
* `Exact.countsTo`: its integers are exact without bound.
* `Exact.least_eq`, `Exact.greatest_eq`, `Exact.lerp_zero` and their like put the operations of the
  library into those of the field.

With `open scoped Exact` the operations of a field go before those of its scalars. It also gives the
rationals functions and texts (`rationalFunctions`, `rationalTexts`), for runs that use none of
them.

Out of scope: the rounding of doubles, and their infinities and undefined values. What holds of
every such field is what the code does as far as its arithmetic is exact. Results that hold of
doubles as well, rounding included, are stated for all scalars, or for those with the few laws of
`Proofs/Scalar/Laws`.
-/

namespace CanvasScript

/-- The functions of scalars that the operations and the order of a field do not determine. -/
class ScalarFunctions (K : Type) where
  sqrt : K → K
  sin : K → K
  cos : K → K
  pi : K

/-- The texts of scalars, and what stands for scalars beyond the numbers of a field. -/
class ScalarTexts (K : Type) where
  shortest : K → String
  fixed : Nat → K → String
  infinity : Bool → K
  undefined : K

namespace Exact

/-- Functions of rationals, for what uses none of them. -/
scoped instance rationalFunctions : ScalarFunctions Rat where
  sqrt x := x
  sin x := x
  cos x := x
  pi := 3

/-- Texts of rationals, for what uses none of them. -/
scoped instance rationalTexts : ScalarTexts Rat where
  shortest := toString
  fixed _ := toString
  infinity _ := 0
  undefined := 0

variable {K : Type} [Field K] [LinearOrder K] [FloorRing K]

/-- The integer nearest to a scalar, ties to the even one. -/
def halfEven (x : K) : Int :=
  if Int.fract x < 1 / 2 then ⌊x⌋
  else if 1 / 2 < Int.fract x then ⌊x⌋ + 1
  else if ⌊x⌋ % 2 = 0 then ⌊x⌋ else ⌊x⌋ + 1

section Rounding

/-- An integer is the nearest one to a scalar; half way between two it is the even one. -/
structure Nearest (x : K) (n : Int) : Prop where
  distance : |x - n| ≤ 1 / 2
  even : |x - n| = 1 / 2 → n % 2 = 0

variable [IsStrictOrderedRing K]

/-- **The nearest integer grows with the scalar**, so there is one only. -/
theorem Nearest.le_of_le {x y : K} {m n : Int} (hm : Nearest x m) (hn : Nearest y n)
    (hxy : x ≤ y) : m ≤ n := by
  by_contra! hlt
  have hcast : (n : K) + 1 ≤ m := by exact_mod_cast hlt
  have hx := abs_le.mp hm.distance
  have hy := abs_le.mp hn.distance
  -- both scalars stand half way between the two integers, of which only one is even
  have hxm : x - m = -(1 / 2) := by linarith
  have hyn : y - n = 1 / 2 := by linarith
  have heven := hm.even (by rw [hxm, abs_neg]; exact abs_of_pos (by norm_num))
  have heven' := hn.even (by rw [hyn]; exact abs_of_pos (by norm_num))
  have hnext : (m : K) = (n + 1 : Int) := by push_cast; linarith
  have : m = n + 1 := Int.cast_injective hnext
  omega

@[simp] theorem halfEven_intCast (n : Int) : halfEven (n : K) = n := by
  have half_pos : (0 : K) < 1 / 2 := by norm_num
  simp only [halfEven, Int.fract_intCast, Int.floor_intCast, if_pos half_pos]

/-- **Rounding ends at the nearest integer.** -/
theorem nearest_halfEven (x : K) : Nearest x (halfEven x) := by
  have hbelow : |x - ⌊x⌋| = Int.fract x := abs_of_nonneg (Int.fract_nonneg x)
  have habove : |x - (⌊x⌋ + 1 : Int)| = 1 - Int.fract x := by
    rw [Int.cast_add, Int.cast_one, ← sub_sub, Int.self_sub_floor, abs_sub_comm]
    exact abs_of_nonneg (sub_nonneg.mpr (Int.fract_lt_one x).le)
  unfold halfEven
  split_ifs with hlow hhigh heven
  · exact ⟨hbelow.trans_le hlow.le, fun h => absurd (hbelow.symm.trans h) hlow.ne⟩
  · exact ⟨by rw [habove]; linarith, fun h => by rw [habove] at h; linarith⟩
  · exact ⟨hbelow.trans_le (not_lt.mp hhigh), fun _ => heven⟩
  · exact ⟨by rw [habove]; linarith, fun _ => by omega⟩

theorem Nearest.halfEven_eq {x : K} {n : Int} (h : Nearest x n) : halfEven x = n :=
  le_antisymm ((nearest_halfEven x).le_of_le h le_rfl) (h.le_of_le (nearest_halfEven x) le_rfl)

theorem halfEven_mono {x y : K} (hxy : x ≤ y) : halfEven x ≤ halfEven y :=
  (nearest_halfEven x).le_of_le (nearest_halfEven y) hxy

end Rounding

variable [ScalarFunctions K]

/-- The scalars of an ordered field. -/
instance instScalar : Scalar K where
  decLt := inferInstance
  decLe := inferInstance
  ofInt n := n
  ofRat q := q
  holds _ := true
  isFinite _ := true
  floor x := .ok ⌊x⌋
  ceil x := .ok ⌈x⌉
  round x := .ok (halfEven x)
  roundTo places x := halfEven (x * 10 ^ places) / 10 ^ places
  modulo x y := x - y * ⌊x / y⌋
  cube x := x ^ 3
  sqrt := ScalarFunctions.sqrt
  sin := ScalarFunctions.sin
  cos := ScalarFunctions.cos
  pi := ScalarFunctions.pi

-- the operations on a field are its own, not those of its scalars, wherever both are in scope
attribute [scoped instance (100)] Scalar.toAdd Scalar.toSub Scalar.toMul Scalar.toDiv Scalar.toNeg
  Scalar.toLT Scalar.toLE

/-- The same scalars with texts. -/
instance instWritten [ScalarTexts K] : Written K where
  toScalar := instScalar
  shortest := ScalarTexts.shortest
  fixed := ScalarTexts.fixed
  ofDecimal negative digits exponent := (if negative then -1 else 1) * digits * 10 ^ exponent
  infinity := ScalarTexts.infinity
  undefined := ScalarTexts.undefined

open Scalar

@[simp] theorem ofInt_eq (n : Int) : (ofInt n : K) = n := rfl

@[simp] theorem zero_eq : (zero : K) = 0 := Int.cast_zero

@[simp] theorem one_eq : (one : K) = 1 := Int.cast_one

@[simp] theorem least_eq (a b : K) : least a b = min a b := by
  unfold least
  split
  · rename_i h
    exact (min_eq_right (le_of_lt h)).symm
  · rename_i h
    exact (min_eq_left (not_lt.mp h)).symm

@[simp] theorem greatest_eq (a b : K) : greatest a b = max a b := by
  unfold greatest
  split
  · rename_i h
    exact (max_eq_right (le_of_lt h)).symm
  · rename_i h
    exact (max_eq_left (not_lt.mp h)).symm

theorem unitClamp_eq (t : K) : unitClamp t = min 1 (max 0 t) := by
  simp [unitClamp]

theorem toScalar?_eq (n : Number K) : n.toScalar? = .ok n.toScalar := by
  cases n <;> rfl

/-- Two numbers have a sum, and it denotes the sum of what they denote. -/
theorem exists_add (m n : Number K) :
    ∃ sum, m.add n = .ok sum ∧ sum.toScalar = m.toScalar + n.toScalar := by
  cases m with
  | int m =>
    cases n with
    | int n => exact ⟨_, rfl, Int.cast_add m n⟩
    | real y => exact ⟨_, rfl, rfl⟩
  | real x => cases n <;> exact ⟨_, rfl, rfl⟩

@[simp] theorem lerp_one (a b : K) : lerp a b one = b := by
  simp [lerp]

@[simp] theorem unitClamp_one : unitClamp (one : K) = one := by
  simp [unitClamp]

instance : OrderedScalar K where
  le_self_left _ := le_rfl
  le_self_right _ := le_rfl
  le_of_lt := le_of_lt
  le_of_not_lt _ _ := not_lt.mp

/-- What is clamped stays where it is. -/
theorem unitClamp_unitClamp (t : K) : unitClamp (unitClamp t) = unitClamp t := by
  have hle : (zero : K) ≤ one := by simp
  obtain ⟨hlow, hhigh⟩ := mem_unitClamp hle t
  rw [zero_eq] at hlow
  rw [one_eq] at hhigh
  rw [unitClamp_eq (unitClamp t), max_eq_right hlow, min_eq_right hhigh]

variable [IsStrictOrderedRing K]

/-- A scalar equals the integer that it is. -/
theorem whole?_eq_some_iff {x : K} {n : Int} : whole? x = some n ↔ x = n := by
  show (if same x (ofInt ⌊x⌋) = true then some ⌊x⌋ else none) = some n ↔ _
  simp only [same, ofInt_eq, Bool.and_eq_true, decide_eq_true_eq, Int.floor_le, and_true]
  constructor
  · intro h
    split at h
    · rename_i hle
      rw [← Option.some.inj h]
      exact le_antisymm hle (Int.floor_le x)
    · cases h
  · rintro rfl
    rw [Int.floor_intCast, if_pos le_rfl]

theorem abs_eq (x : K) : Scalar.abs x = |x| := by
  unfold Scalar.abs
  rw [zero_eq]
  split_ifs with h
  · exact (abs_of_neg h).symm
  · exact (abs_of_nonneg (not_lt.mp h)).symm

/-- Numbers compare as what they denote. -/
theorem le_iff (m n : Number K) : m.le n = true ↔ m.toScalar ≤ n.toScalar := by
  cases m <;> cases n
  · exact decide_eq_true_iff.trans Int.cast_le.symm
  · exact decide_eq_true_iff.trans Int.le_floor
  · exact decide_eq_true_iff.trans Int.ceil_le
  · exact decide_eq_true_iff

theorem lt_of_le_eq_false {m n : Number K} (h : m.le n = false) : n.toScalar < m.toScalar :=
  not_le.mp fun hle => Bool.false_ne_true (h.symm.trans ((le_iff m n).mpr hle))

/-- A number that is not at most zero denotes a positive scalar. -/
theorem toScalar_pos {n : Number K} (h : n.le (.int 0) = false) : 0 < n.toScalar :=
  zero_eq.symm.trans_lt (lt_of_le_eq_false h)

variable (K) in
/-- **Exact scalars count without bound.** -/
theorem countsTo (n : Int) : CountsTo K n where
  lt_iff _ _ _ _ := Int.cast_lt
  sub _ _ _ := (Int.cast_sub _ _).symm
  holds _ _ := rfl
  round_mul_one {i} _ _ := by
    show Except.ok (halfEven ((i : K) * one)) = _
    rw [one_eq, mul_one, halfEven_intCast]

end Exact

end CanvasScript
