import CanvasScript.Rounding

/-!
# Scalars

The numbers a drawing is computed with. All geometry, timing and playback code is written over one
class `Scalar α`, so the same definitions run on doubles (`Scalar/Binary64`) and can be reasoned
about over any exact ordered field, with `sin`, `cos` and `pi` left arbitrary.

Model of the numbers with a point and of the functions that are called on them: `floor`, `ceil`,
`round`, the remainder that has the sign of its divisor, `sqrt`, `sin` and `cos`. An
`ArithmeticFault` is an error that one of these raises. In the class only conversions to integers
raise one; an angle or a power that would is looked at where it is used (`Affine.rotation?`,
`Easing.applyChecked`). `unitClamp` is `_clamp01`.

* `least` and `greatest` keep their first argument unless the second is strictly smaller or greater,
  so a scalar that compares with nothing is passed over as second and kept as first argument.
* `unitClamp` brings a scalar into `[0, 1]`, and `lerp a b t` goes from `a` at `0` to `b` at `1`.
* `whole? x` is the integer that `x` equals, if there is one.

Out of scope: how near `sin`, `cos` and `sqrt` come to the functions of these names. The class asks
no law of any operation; `Proofs/Scalar/Laws` names the few that some results need.
-/

namespace CanvasScript

/-- Why a scalar has no integer near it, an integer no scalar, or an angle no sine. -/
inductive ArithmeticFault where
  /-- The scalar stands for no number. -/
  | notANumber
  /-- The scalar is infinite. -/
  | infinite
  /-- The integer lies beyond the finite scalars. -/
  | tooLarge
  /-- The angle is infinite. -/
  | unboundedAngle
  /-- The power of a finite scalar is infinite. -/
  | unboundedPower
  deriving DecidableEq, Repr

/-- The text that reports the fault. -/
def ArithmeticFault.message : ArithmeticFault → String
  | .notANumber => "cannot convert float NaN to integer"
  | .infinite => "cannot convert float infinity to integer"
  | .tooLarge => "int too large to convert to float"
  | .unboundedAngle => "math domain error"
  | .unboundedPower => "(34, 'Numerical result out of range')"

/-- The arithmetic that drawing and playback need. -/
class Scalar (α : Type) extends Add α, Sub α, Mul α, Div α, Neg α, LT α, LE α where
  /-- The order is decidable. -/
  decLt : DecidableLT α
  /-- The non-strict order is decidable. -/
  decLe : DecidableLE α
  /-- The scalar nearest to an integer. -/
  ofInt : Int → α
  /-- The scalar nearest to a rational. -/
  ofRat : Rat → α
  /-- Whether an integer lies within the finite scalars. -/
  holds : Int → Bool
  /-- Whether a scalar stands for a number of finite size. -/
  isFinite : α → Bool
  /-- The greatest integer that is at most the scalar. -/
  floor : α → Except ArithmeticFault Int
  /-- The least integer that is at least the scalar. -/
  ceil : α → Except ArithmeticFault Int
  /-- The nearest integer, ties to the even one. -/
  round : α → Except ArithmeticFault Int
  /-- The scalar rounded to a count of decimals, ties to the even last digit. -/
  roundTo : Nat → α → α
  /-- The remainder of a division, with the sign of the divisor. -/
  modulo : α → α → α
  /-- The third power. -/
  cube : α → α
  /-- The square root. -/
  sqrt : α → α
  /-- The sine of an angle in radians. -/
  sin : α → α
  /-- The cosine of an angle in radians. -/
  cos : α → α
  /-- Half a turn in radians. -/
  pi : α

namespace Scalar

variable {α : Type} [Scalar α]

instance : DecidableLT α := decLt
instance : DecidableLE α := decLe

/-- The scalar zero. -/
@[inline] def zero : α := ofInt 0

/-- The scalar one. -/
@[inline] def one : α := ofInt 1

/-- The scalar two. -/
@[inline] def two : α := ofInt 2

/-- The scalar one half. -/
def half : α := ofRat (1 / 2)

/-- The scalar of an integer, refused when the integer lies beyond the finite scalars. -/
def ofInt? (n : Int) : Except ArithmeticFault α :=
  if holds (α := α) n then .ok (ofInt n) else .error .tooLarge

/-- Numeric equality: each is at most the other. -/
@[inline] def same (a b : α) : Bool := decide (a ≤ b) && decide (b ≤ a)

/-- The smaller of two scalars, the first unless the second is strictly smaller. -/
@[inline] def least (a b : α) : α := if b < a then b else a

/-- The greater of two scalars, the first unless the second is strictly greater. -/
@[inline] def greatest (a b : α) : α := if a < b then b else a

/-- The absolute value. -/
@[inline] def abs (a : α) : α := if a < zero then -a else a

/-- The scalar brought into `[0, 1]`. -/
@[inline] def unitClamp (t : α) : α := least one (greatest zero t)

/-- From `a` at `0` to `b` at `1`. -/
@[inline] def lerp (a b t : α) : α := (one - t) * a + t * b

/-- Degrees in radians. -/
@[inline] def radians (angle : α) : α := angle * (pi / ofInt 180)

/-- A full turn in radians. -/
@[inline] def turn : α := two * pi

/-- The integer that a scalar equals, if there is one. -/
def whole? (a : α) : Option Int :=
  match floor a with
  | .ok n => if same a (ofInt n) then some n else none
  | .error _ => none

end Scalar

/-- A scalar with a written decimal form. -/
class Written (α : Type) extends Scalar α where
  /-- The fewest digits that read back as the scalar. -/
  shortest : α → String
  /-- The scalar with a fixed count of decimals. -/
  fixed : Nat → α → String
  /-- The scalar nearest to `± digits · 10 ^ exponent`. -/
  ofDecimal : (negative : Bool) → (digits : Nat) → (exponent : Int) → α
  /-- The infinite scalar of a sign. -/
  infinity : (negative : Bool) → α
  /-- A scalar that stands for no number. -/
  undefined : α

end CanvasScript
