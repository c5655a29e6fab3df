import CanvasScript.Command
import CanvasScript.Geometry.Affine

/-!
# Motions as transforms

Model of `CompiledStep.partial` and of the motions in `_MatrixPass.apply`.

* `Motion.transform` is the whole motion.
* `Motion.partway t` is its part at `t`: shifts, angles and shears grow from zero, and scales
  and matrices run straight from the identity.

Out of scope: the errors of numbers beyond the scalars and of infinite angles, which decoded motions
do not raise (`Proofs/Timeline/Checked`).
-/

namespace CanvasScript.Motion

open Scalar

variable {α : Type} [Scalar α]

/-- The transform of a motion. -/
def transform : Motion α → Affine α
  | .translate x y => Affine.shift x.toScalar y.toScalar
  | .rotate angle => Affine.rotation angle.toScalar
  | .scale x y => Affine.scaling x.toScalar y.toScalar
  | .shear x y => Affine.shearing x.toScalar y.toScalar
  | .matrix a b c d e f =>
    ⟨a.toScalar, b.toScalar, c.toScalar, d.toScalar, e.toScalar, f.toScalar⟩

/-- The transform of a motion at `t`. -/
def partway (t : α) : Motion α → Affine α
  | .translate x y => Affine.shift (x.toScalar * t) (y.toScalar * t)
  | .rotate angle => Affine.rotation (angle.toScalar * t)
  | .scale x y => Affine.scaling (lerp one x.toScalar t) (lerp one y.toScalar t)
  | .shear x y => Affine.shearing (lerp zero x.toScalar t) (lerp zero y.toScalar t)
  | .matrix a b c d e f =>
    ⟨lerp one a.toScalar t, lerp zero b.toScalar t, lerp zero c.toScalar t,
      lerp one d.toScalar t, lerp zero e.toScalar t, lerp zero f.toScalar t⟩

end CanvasScript.Motion
