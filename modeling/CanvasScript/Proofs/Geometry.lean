import CanvasScript.Command.Motion
import CanvasScript.Proofs.Scalar.Exact

/-!
# Transforms without rounding

The laws of `multiply`, and how the way of a motion (`CompiledStep.partial`) lies in the frames that
lead to it and on from it.

* Over exact scalars the transforms are a monoid under composition.
* `Motion.partway_one`: **a motion that has gone all its way is the whole motion**, with any sine
  and cosine.
* `Motion.partway_zero`: and before its way it is none, as far as a turn by nothing is.
* `Affine.mul_between`: **what lies between two frames is moved with them**. So shifts, scales,
  shears and matrices go straight from the frame before them to the one behind
  (`Motion.mul_partway`).

Out of scope: the rounding of doubles, under which composition is not associative.
-/

namespace CanvasScript

open Scalar
open scoped Exact

variable {K : Type} [Field K] [LinearOrder K] [FloorRing K] [ScalarFunctions K]

namespace Affine

theorem compose_assoc (l m n : Affine K) : compose (compose l m) n = compose l (compose m n) := by
  simp only [compose, mk.injEq]
  refine ⟨?_, ?_, ?_, ?_, ?_, ?_⟩ <;> ring

theorem identity_compose (m : Affine K) : compose identity m = m := by
  simp only [compose, identity, Exact.zero_eq, Exact.one_eq]
  simp

theorem compose_identity (m : Affine K) : compose m identity = m := by
  simp only [compose, identity, Exact.zero_eq, Exact.one_eq]
  simp

/-- **Transforms compose associatively, and the identity is neutral.** -/
instance : Monoid (Affine K) where
  one := identity
  mul_assoc := compose_assoc
  one_mul := identity_compose
  mul_one := compose_identity

theorem one_eq : (1 : Affine K) = identity := rfl

/-- The transform that has gone the part `t` of the straight way from one to another, in each of its
numbers. -/
def between (m n : Affine K) (t : K) : Affine K where
  a := (1 - t) * m.a + t * n.a
  b := (1 - t) * m.b + t * n.b
  c := (1 - t) * m.c + t * n.c
  d := (1 - t) * m.d + t * n.d
  e := (1 - t) * m.e + t * n.e
  f := (1 - t) * m.f + t * n.f

/-- **What lies between two frames is moved with them.** -/
theorem mul_between (l m n : Affine K) (t : K) : l * between m n t = between (l * m) (l * n) t := by
  simp only [mul_def, compose, between, mk.injEq]
  refine ⟨?_, ?_, ?_, ?_, ?_, ?_⟩ <;> ring

end Affine

/-- **A motion that has gone all its way is the whole motion.** -/
theorem Motion.partway_one (motion : Motion K) : motion.partway one = motion.transform := by
  cases motion with
  | translate x y => simp only [partway, transform, Exact.one_eq, mul_one]
  | rotate angle => simp only [partway, transform, Exact.one_eq, mul_one]
  | scale x y => simp only [partway, transform, Exact.lerp_one]
  | shear x y => simp only [partway, transform, Exact.lerp_one]
  | matrix a b c d e f => simp only [partway, transform, Exact.lerp_one]

/-- **A motion that has gone nothing of its way is none**, as far as a turn by nothing is. -/
theorem Motion.partway_zero (hsin : sin (0 : K) = 0) (hcos : cos (0 : K) = 1) (motion : Motion K) :
    motion.partway 0 = 1 := by
  cases motion with
  | rotate angle =>
    simp [partway, Affine.rotation, radians, Affine.one_eq, Affine.identity, hsin, hcos]
  | translate x y => simp [partway, Affine.shift, Affine.one_eq, Affine.identity]
  | scale x y => simp [partway, Affine.scaling, lerp, Affine.one_eq, Affine.identity]
  | shear x y => simp [partway, Affine.shearing, lerp, Affine.one_eq, Affine.identity]
  | matrix a b c d e f => simp [partway, lerp, Affine.one_eq, Affine.identity]

/-- Whether the numbers of a motion grow evenly on its way. Those of a rotation go round. -/
def Motion.isStraight {α : Type} : Motion α → Bool
  | .rotate _ => false
  | _ => true

/-- **A straight motion lies between nothing and the whole motion.** -/
theorem Motion.partway_eq_between {motion : Motion K} (h : motion.isStraight = true) (t : K) :
    motion.partway t = Affine.between 1 motion.transform t := by
  cases motion with
  | rotate angle => cases h
  | matrix a b c d e f =>
    simp only [partway, transform, Affine.between, lerp, Affine.one_eq, Affine.identity,
      Exact.zero_eq, Exact.one_eq]
  | translate x y | scale x y | shear x y =>
    simp only [partway, transform, Affine.between, Affine.shift, Affine.scaling, Affine.shearing,
      lerp, Affine.one_eq, Affine.identity, Exact.zero_eq, Exact.one_eq]
    congr 1 <;> ring

/-- So it goes straight from the frame before it to the one behind. -/
theorem Motion.mul_partway {motion : Motion K} (h : motion.isStraight = true) (m : Affine K)
    (t : K) : m * motion.partway t = Affine.between m (m * motion.transform) t := by
  rw [partway_eq_between h, Affine.mul_between, mul_one]

end CanvasScript
