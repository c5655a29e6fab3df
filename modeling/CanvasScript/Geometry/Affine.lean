import CanvasScript.Scalar

/-!
# Affine transforms of the plane

A transform takes `(x, y)` to `(a·x + c·y + e, b·x + d·y + f)`.

Model of `Affine2D`, with `multiply` as `compose`. `translate`, `rotate` and `scale` of a transform
are its products with a `shift`, a `rotation` and a `scaling`.

* `m * n` applies `n` first: it is the frame `n` inside the frame `m`.
* `inverse?` undoes a transform whose determinant is not close to zero.
* `apply` moves a point, and `applyVector` a vector, for which shifts do not count.

Out of scope of `rotation`: the error at an infinite angle, for which `rotation?` looks. Decoded
angles are finite.
-/

namespace CanvasScript

/-- A point or a vector of the plane. -/
structure Point (α : Type) where
  x : α
  y : α
  deriving DecidableEq, Repr

/-- An affine transform of the plane. -/
structure Affine (α : Type) where
  a : α
  b : α
  c : α
  d : α
  e : α
  f : α
  deriving DecidableEq, Repr

namespace Affine

open Scalar

variable {α : Type} [Scalar α]

/-- The transform that moves nothing. -/
def identity : Affine α := ⟨one, zero, zero, one, zero, zero⟩

/-- The shift by a vector. -/
def shift (x y : α) : Affine α := ⟨one, zero, zero, one, x, y⟩

/-- The rotation by an angle in degrees. -/
def rotation (angle : α) : Affine α :=
  let t := radians angle
  ⟨cos t, sin t, -sin t, cos t, zero, zero⟩

/-- The scaling along the two axes. -/
def scaling (x y : α) : Affine α := ⟨x, zero, zero, y, zero, zero⟩

/-- The shearing along the two axes. -/
def shearing (x y : α) : Affine α := ⟨one, y, x, one, zero, zero⟩

/-- The composition of two transforms; the second is applied first. -/
def compose (m n : Affine α) : Affine α where
  a := m.a * n.a + m.c * n.b
  b := m.b * n.a + m.d * n.b
  c := m.a * n.c + m.c * n.d
  d := m.b * n.c + m.d * n.d
  e := m.a * n.e + m.c * n.f + m.e
  f := m.b * n.e + m.d * n.f + m.f

instance : Mul (Affine α) := ⟨compose⟩

theorem mul_def (m n : Affine α) : m * n = compose m n := rfl

/-- The factor by which areas grow. -/
def determinant (m : Affine α) : α := m.a * m.d - m.b * m.c

/-- The determinant below which a transform counts as singular. -/
def singularBelow : α := ofRat (1 / 1000000000000)

/-- The transform that undoes another, unless that is singular. -/
def inverse? (m : Affine α) : Option (Affine α) :=
  let det := m.determinant
  if Scalar.abs det < singularBelow then none
  else
    let a := m.d / det
    let b := -m.b / det
    let c := -m.c / det
    let d := m.a / det
    some ⟨a, b, c, d, -(a * m.e + c * m.f), -(b * m.e + d * m.f)⟩

/-- The text that reports a transform without an inverse. -/
def singularMessage : String := "affine transform is singular"

/-- The place to which a point goes. -/
def apply (m : Affine α) (p : Point α) : Point α :=
  ⟨m.a * p.x + m.c * p.y + m.e, m.b * p.x + m.d * p.y + m.f⟩

/-- The vector to which a vector goes. -/
def applyVector (m : Affine α) (v : Point α) : Point α :=
  ⟨m.a * v.x + m.c * v.y, m.b * v.x + m.d * v.y⟩

/-- The six numbers in order. -/
def entries (m : Affine α) : List α := [m.a, m.b, m.c, m.d, m.e, m.f]

/-- The tolerance of a comparison where none is given. -/
def tolerance : α := ofRat (1 / 1000000000)

/-- Whether each number is within a tolerance of the one of the other transform. -/
def isClose (m n : Affine α) (tolerance : α) : Bool :=
  (m.entries.zip n.entries).all fun (x, y) => decide (Scalar.abs (x - y) ≤ tolerance)

/-- The rotation by an angle that must be bounded. -/
def rotation? (angle : α) : Except ArithmeticFault (Affine α) :=
  let t := radians angle
  if isFinite t || !same t t then .ok (rotation angle) else .error .unboundedAngle

end Affine

end CanvasScript
