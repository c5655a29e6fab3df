import CanvasScript.Decimal.Digits
import CanvasScript.Scalar

/-!
# Numbers as programs write them

A program writes a number either as an integer, of any size, or as a scalar. The two are kept apart
because their written forms differ (`1` and `1.0`) and because integers add exactly.

Model of the numbers in the fields of commands and in values. `add` is the sum that gives the far
corner of a rectangle.

* `toScalar` is the scalar a number denotes; `toScalar?` refuses an integer beyond the scalars.
* `add` is exact on two integers and a scalar sum otherwise.

Out of scope: flags. They count as `0` and `1` where values are compared (`Value.equalsInt`), and
never stand in the place of a number.
-/

namespace CanvasScript

/-- A number as written: an integer or a scalar. -/
inductive Number (α : Type) where
  | int (n : Int)
  | real (x : α)
  deriving DecidableEq, Repr

namespace Number

section

variable {α : Type} [Scalar α]

/-- The scalar that the number denotes. -/
@[inline] def toScalar : Number α → α
  | .int n => Scalar.ofInt n
  | .real x => x

/-- The scalar that the number denotes, refused for an integer beyond the finite scalars. -/
def toScalar? : Number α → Except ArithmeticFault α
  | .int n => Scalar.ofInt? n
  | .real x => .ok x

/-- Whether the number is of finite size; an integer beyond the scalars has no answer. -/
def isFinite : Number α → Except ArithmeticFault Bool
  | .int n => if Scalar.holds (α := α) n then .ok true else .error .tooLarge
  | .real x => .ok (Scalar.isFinite x)

/-- The sum: exact for two integers, of scalars otherwise. -/
def add : Number α → Number α → Except ArithmeticFault (Number α)
  | .int m, .int n => .ok (.int (m + n))
  | a, b => return .real ((← a.toScalar?) + (← b.toScalar?))

/-- The nearest integer, ties to the even one. -/
def round : Number α → Except ArithmeticFault Int
  | .int n => .ok n
  | .real x => Scalar.round x

/-- The number is at most another. An integer counts as it is, however large. -/
def le : Number α → Number α → Bool
  | .int m, .int n => decide (m ≤ n)
  | .int m, .real y =>
    match Scalar.floor y with
    | .ok n => decide (m ≤ n)
    | .error _ => decide (Scalar.zero ≤ y)
  | .real x, .int n =>
    match Scalar.ceil x with
    | .ok m => decide (m ≤ n)
    | .error _ => decide (x ≤ Scalar.zero)
  | .real x, .real y => decide (x ≤ y)

@[simp] theorem toScalar_real (x : α) : (Number.real x).toScalar = x := rfl

@[simp] theorem toScalar?_real (x : α) : (Number.real x).toScalar? = .ok x := rfl

end

section

variable {α : Type} [Written α]

/-- The written form: all digits of an integer, the fewest that read back of a scalar. -/
def text : Number α → String
  | .int n => Decimal.integerText n
  | .real x => Written.shortest x

/-- The written form in a program: a scalar that equals an integer is written as that integer. -/
def plainText : Number α → String
  | .int n => Decimal.integerText n
  | .real x =>
    match Scalar.whole? x with
    | some n => Decimal.integerText n
    | none => Written.shortest x

end

end Number

end CanvasScript
