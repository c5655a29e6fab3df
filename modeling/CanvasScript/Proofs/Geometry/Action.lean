import CanvasScript.Proofs.Geometry
import Mathlib.Data.Rat.Floor
import Mathlib.Tactic.LinearCombination

/-!
# Transforms that move points

Over exact scalars a composition (`multiply`) moves a point as its parts do one after another, the
inner one first, and what has an inverse is undone by it without a rest.

* `Affine.apply_mul`: **a composition moves points as its parts do**.
* `Affine.apply_add`: the points that a vector joins are joined by the moved vector.
* `Affine.determinant_mul`: areas grow by both factors.
* `Affine.inverse?_eq_none_iff`: there is no inverse just where areas shrink to almost nothing.
* `Affine.mul_eq_identity_of_inverse?`: **an inverse undoes its transform, and is undone by it**.
* `Affine.mul_acts`: the laws together.

Out of scope: the rounding of doubles, under which composition is not associative.
-/

namespace CanvasScript

open scoped Exact

/-- The point to which a vector leads from a point. -/
instance {α : Type} [Add α] : Add (Point α) := ⟨fun p v => ⟨p.x + v.x, p.y + v.y⟩⟩

theorem Point.add_def {α : Type} [Add α] (p v : Point α) : p + v = ⟨p.x + v.x, p.y + v.y⟩ := rfl

namespace Affine

variable {K : Type} [Field K] [LinearOrder K] [FloorRing K] [ScalarFunctions K]

/-! ## Points and areas -/

/-- **A composition moves points as its parts do**, the second one first. -/
theorem apply_mul (m n : Affine K) (q : Point K) : (m * n).apply q = m.apply (n.apply q) := by
  simp only [mul_def, compose, apply, Point.mk.injEq]
  constructor <;> ring

theorem apply_identity (q : Point K) : (identity : Affine K).apply q = q := by
  simp only [apply, identity, Exact.zero_eq, Exact.one_eq]
  simp

/-- A vector that joins two points is moved with them. -/
theorem apply_add (m : Affine K) (q v : Point K) :
    m.apply (q + v) = m.apply q + m.applyVector v := by
  simp only [Point.add_def, apply, applyVector, Point.mk.injEq]
  constructor <;> ring

/-- **Areas grow by the factors of both parts.** -/
theorem determinant_mul (m n : Affine K) :
    (m * n).determinant = m.determinant * n.determinant := by
  simp only [mul_def, compose, determinant]
  ring

theorem determinant_identity : (identity : Affine K).determinant = 1 := by
  simp only [determinant, identity, Exact.zero_eq, Exact.one_eq]
  ring

/-! ## Inverses -/

/-- The transform that undoes another one whose determinant is not zero. -/
def undoing (m : Affine K) : Affine K where
  a := m.d / m.determinant
  b := -m.b / m.determinant
  c := -m.c / m.determinant
  d := m.a / m.determinant
  e := -(m.d / m.determinant * m.e + -m.c / m.determinant * m.f)
  f := -(-m.b / m.determinant * m.e + m.a / m.determinant * m.f)

/-- **What undoes a transform is undone by it.** -/
theorem mul_undoing {m : Affine K} (h : m.determinant ≠ 0) : m * m.undoing = identity := by
  have hdet : (m.a * m.d - m.b * m.c) * m.determinant⁻¹ = 1 := mul_inv_cancel₀ h
  simp only [mul_def, compose, undoing, identity, Exact.zero_eq, Exact.one_eq, mk.injEq,
    div_eq_mul_inv]
  refine ⟨?_, ?_, ?_, ?_, ?_, ?_⟩
  · linear_combination hdet
  · ring
  · ring
  · linear_combination hdet
  · linear_combination -m.e * hdet
  · linear_combination -m.f * hdet

/-- **And it undoes the transform**, since what undoes it in turn can only be the transform. -/
theorem undoing_mul {m : Affine K} (h : m.determinant ≠ 0) : m.undoing * m = identity := by
  have hdet : m.determinant * m.undoing.determinant = 1 := by
    rw [← determinant_mul, mul_undoing h, determinant_identity]
  have hundoing : m.undoing.determinant ≠ 0 := right_ne_zero_of_mul_eq_one hdet
  have hm : m = m.undoing.undoing := left_inv_eq_right_inv (mul_undoing h) (mul_undoing hundoing)
  calc m.undoing * m = m.undoing * m.undoing.undoing := congrArg (m.undoing * ·) hm
    _ = identity := mul_undoing hundoing

variable [IsStrictOrderedRing K]

/-- There is an inverse unless the determinant is almost zero. -/
theorem inverse?_eq (m : Affine K) :
    m.inverse? = if |m.determinant| < 1 / 10 ^ 12 then none else some m.undoing := by
  have hbound : (singularBelow : K) = 1 / 10 ^ 12 := by
    show ((1 / 1000000000000 : Rat) : K) = _
    norm_num
  unfold inverse?
  rw [← hbound]
  simp only [Exact.abs_eq]
  rfl

theorem inverse?_eq_none_iff (m : Affine K) :
    m.inverse? = none ↔ |m.determinant| < 1 / 10 ^ 12 := by
  rw [inverse?_eq]
  by_cases hsmall : |m.determinant| < 1 / 10 ^ 12
  · exact iff_of_true (if_pos hsmall) hsmall
  · rw [if_neg hsmall]
    exact iff_of_false (Option.some_ne_none _) hsmall

/-- **Where there is an inverse, it undoes the transform on both sides.** -/
theorem mul_eq_identity_of_inverse? {m w : Affine K} (h : m.inverse? = some w) :
    m * w = identity ∧ w * m = identity := by
  have hlarge : ¬ |m.determinant| < 1 / 10 ^ 12 := by
    rw [← inverse?_eq_none_iff, h]
    exact Option.some_ne_none w
  have hdet : m.determinant ≠ 0 := by
    intro hzero
    refine hlarge ?_
    rw [hzero, abs_zero]
    positivity
  rw [inverse?_eq, if_neg hlarge] at h
  obtain rfl := Option.some.inj h
  exact ⟨mul_undoing hdet, undoing_mul hdet⟩

/-- **Transforms act on points, and are undone without a rest.** They compose associatively, with
the identity on both sides; a composition moves points as its parts do, and areas grow by both
factors; a vector that joins two points is moved with them. There is an inverse just where the
determinant is not below `10⁻¹²`, and it is one on both sides. -/
theorem mul_acts (l m n : Affine K) (q v : Point K) :
    l * m * n = l * (m * n) ∧ identity * m = m ∧ m * identity = m ∧
    (m * n).apply q = m.apply (n.apply q) ∧ (identity : Affine K).apply q = q ∧
    m.apply (q + v) = m.apply q + m.applyVector v ∧
    (m * n).determinant = m.determinant * n.determinant ∧
    (m.inverse? = none ↔ |m.determinant| < 1 / 10 ^ 12) ∧
    ∀ w, m.inverse? = some w → m * w = identity ∧ w * m = identity :=
  ⟨mul_assoc l m n, one_mul m, mul_one m, apply_mul m n q, apply_identity q, apply_add m q v,
    determinant_mul m n, inverse?_eq_none_iff m, fun _ => mul_eq_identity_of_inverse?⟩

/-- A shear with a shift. -/
def sheared : Affine Rat := ⟨2, 1, 1, 1, 3, -4⟩

/-- Its inverse. -/
def unsheared : Affine Rat := ⟨1, -1, -1, 2, -7, 11⟩

/-- A frame that turns the plane over. -/
def turnedOver : Affine Rat := ⟨0, 3, 1 / 2, 0, -1, 7⟩

theorem mul_acts_sheared :
    sheared.inverse? = some unsheared ∧ sheared * unsheared = identity ∧
      unsheared * sheared = identity ∧
      (sheared * turnedOver).apply ⟨4, -2⟩ = sheared.apply ⟨-2, 19⟩ ∧
      (sheared * turnedOver).determinant = 1 * (-3 / 2) ∧
      sheared.apply (⟨4, -2⟩ + ⟨1, 1⟩) = sheared.apply ⟨4, -2⟩ + ⟨3, 2⟩ := by
  obtain ⟨-, -, -, happly, -, hvector, hdet, -, hinverse⟩ :=
    mul_acts turnedOver sheared turnedOver ⟨4, -2⟩ ⟨1, 1⟩
  have hsome : sheared.inverse? = some unsheared := by decide +kernel
  obtain ⟨hright, hleft⟩ := hinverse unsheared hsome
  exact ⟨hsome, hright, hleft, happly.trans (by decide +kernel),
    hdet.trans (by decide +kernel), hvector.trans (by decide +kernel)⟩

end Affine

end CanvasScript
