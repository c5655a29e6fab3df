import CanvasScript.Decimal.Notation
import CanvasScript.Decimal.Shortest
import CanvasScript.Scalar

/-!
# Doubles as scalars

A double is decoded from its bits into a sign and a rational magnitude; everything that is not one
of the four operations, a comparison or a transcendental function is computed on that rational and
encoded again.

Model of the doubles, rounded to the nearest with ties to the even mantissa. `holds` tells the
integers that are converted without overflow, `shortest` and `fixed` are texts of a double, and
`ofDecimal` is the double of a text.

* `decode` reads the three fields of the bits, and `encode` rounds a magnitude to the nearest
  double.
* `cell` is the interval of reals that round to a double, for its shortest decimal.
* `instWritten` collects the operations of the scalar class.

Out of scope: the last bit of `Float.sin`, `Float.cos`, `Float.sqrt` and `Float.pow`, which are
those of the machine and which no proof looks into, and the bits of a double that stands for no
number.
-/

namespace CanvasScript.Binary64

/-- What a double stands for. -/
inductive Decoded where
  | finite (negative : Bool) (mantissa : Nat) (exponent : Int)
  | infinite (negative : Bool)
  | undefined
  deriving DecidableEq, Repr

/-- Whether the sign bit of the bits is set. -/
def signBit (bits : Nat) : Bool := bits / Nat.pow 2 63 % 2 == 1

/-- What a sequence of sixty-four bits stands for. -/
def decodeBits (bits : Nat) : Decoded :=
  let negative := signBit bits
  let field := bits / Nat.pow 2 52 % 2048
  let fraction := bits % Nat.pow 2 52
  if field = 2047 then
    if fraction = 0 then .infinite negative else .undefined
  else if field = 0 then .finite negative fraction (-1074)
  else .finite negative (fraction + Nat.pow 2 52) ((field : Int) - 1075)

/-- What a double stands for. -/
def decode (x : Float) : Decoded := decodeBits x.toBits.toNat

/-- The rational `mantissa · 2 ^ exponent`. -/
def magnitude (mantissa : Nat) (exponent : Int) : Rat :=
  if 0 ≤ exponent then ((mantissa * Nat.pow 2 exponent.toNat : Nat) : Rat)
  else mkRat mantissa (Nat.pow 2 exponent.natAbs)

/-- The rational that a finite double equals. -/
def toRat? (x : Float) : Except ArithmeticFault Rat :=
  match decode x with
  | .finite negative mantissa exponent =>
    let r := magnitude mantissa exponent
    .ok (if negative then -r else r)
  | .infinite _ => .error .infinite
  | .undefined => .error .notANumber

/-- The bits of the double nearest to a non-negative rational, ties to the even mantissa. A carry
out of the mantissa runs into the exponent, and beyond the last exponent stands infinity. -/
def magnitudeBits (r : Rat) : Nat :=
  if r ≤ 0 then 0
  else
    let e := max (Rounding.log2 r - 52) (-1074)
    let mantissa := (Rounding.halfEven (r / (2 : Rat) ^ e)).toNat
    if e = -1074 then mantissa
    else min ((e + 1074).toNat * Nat.pow 2 52 + mantissa) (2047 * Nat.pow 2 52)

/-- The double of a sign nearest to a magnitude. -/
def encode (negative : Bool) (r : Rat) : Float :=
  Float.ofBits (UInt64.ofNat ((if negative then Nat.pow 2 63 else 0) + magnitudeBits r))

/-- The double nearest to a rational. -/
def ofRat (r : Rat) : Float :=
  if r < 0 then encode true (-r) else encode false r

/-- The double nearest to an integer; the core conversion is exact below `2 ^ 53`. -/
def ofInt (n : Int) : Float :=
  if n.natAbs < 9007199254740992 then Float.ofInt n else ofRat n

/-- The infinite double of a sign. -/
def infinity (negative : Bool) : Float :=
  if negative then -1.0 / 0.0 else 1.0 / 0.0

/-- Whether the integer rounds to a finite double. -/
def holds (n : Int) : Bool :=
  magnitudeBits (n.natAbs : Rat) < 2047 * Nat.pow 2 52

/-- Whether the sign bit is set. -/
def isNegative (x : Float) : Bool := signBit x.toBits.toNat

/-- The remainder of a division: exact when the operands agree in sign, and otherwise the rounded
sum with the divisor. A zero takes the sign of the divisor. -/
def modulo (x y : Float) : Float :=
  match toRat? x, toRat? y with
  | .ok a, .ok b =>
    if b = 0 then 0.0 / 0.0
    else
      let quotient := a / b
      let whole : Int := if quotient < 0 then -(-quotient).floor else quotient.floor
      let rest := a - whole * b
      if rest = 0 then encode (isNegative y) 0
      else if (rest < 0) = (b < 0) then ofRat rest
      else ofRat rest + y
  | .ok a, .error .infinite =>
    if a = 0 then encode (isNegative y) 0
    else if (a < 0) = (y < 0) then x
    else y
  | _, _ => 0.0 / 0.0

/-- The double rounded to a count of decimals. -/
def roundTo (places : Nat) (x : Float) : Float :=
  match toRat? x with
  | .ok r =>
    let n := Rounding.scaled places (if r < 0 then -r else r)
    encode (isNegative x) (mkRat n (Rounding.pow10 places))
  | .error _ => x

/-- The double nearest to `± digits · 10 ^ exponent`. Magnitudes far beyond the range are answered
without their power of ten. -/
def ofDecimal (negative : Bool) (digits : Nat) (exponent : Int) : Float :=
  let size : Int := ((Decimal.digits digits).length : Int) + exponent
  if digits = 0 ∨ size < -400 then encode negative 0
  else if 400 < size then infinity negative
  else encode negative (digits * (10 : Rat) ^ exponent)

/-- The reals that round to `mantissa · 2 ^ exponent`: half a unit to either side, and a quarter
below where the binade ends. -/
def cell (mantissa : Nat) (exponent : Int) : Decimal.Cell where
  low :=
    if mantissa = Nat.pow 2 52 ∧ -1074 < exponent then magnitude (4 * mantissa - 1) (exponent - 2)
    else magnitude (2 * mantissa - 1) (exponent - 1)
  middle := magnitude mantissa exponent
  high := magnitude (2 * mantissa + 1) (exponent - 1)
  closed := mantissa % 2 == 0

/-- The text of a magnitude behind its sign. -/
def withSign (negative : Bool) (s : List Char) : String :=
  String.ofList (if negative then '-' :: s else s)

/-- The fewest digits that read back as the double. -/
def shortest (x : Float) : String :=
  match decode x with
  | .finite negative mantissa exponent =>
    if mantissa = 0 then withSign negative ['0', '.', '0']
    else
      let (n, e) := (cell mantissa exponent).shortest
      withSign negative (Decimal.floating n e)
  | .infinite negative => withSign negative ['i', 'n', 'f']
  | .undefined => "nan"

/-- The double with a fixed count of decimals. -/
def fixed (places : Nat) (x : Float) : String :=
  match decode x with
  | .finite negative mantissa exponent =>
    withSign negative
      (Decimal.fixed places (Rounding.scaled places (magnitude mantissa exponent)).toNat)
  | .infinite negative => withSign negative ['i', 'n', 'f']
  | .undefined => "nan"

instance instScalar : Scalar Float where
  decLt := inferInstance
  decLe := inferInstance
  ofInt := ofInt
  ofRat := ofRat
  holds := holds
  isFinite := Float.isFinite
  floor x := (toRat? x).map Rat.floor
  ceil x := (toRat? x).map Rat.ceil
  round x := (toRat? x).map Rounding.halfEven
  roundTo := roundTo
  modulo := modulo
  cube x := Float.pow x 3.0
  sqrt := Float.sqrt
  sin := Float.sin
  cos := Float.cos
  pi := 3.141592653589793

instance instWritten : Written Float where
  toScalar := instScalar
  shortest := shortest
  fixed := fixed
  ofDecimal := ofDecimal
  infinity := infinity
  undefined := 0.0 / 0.0

end CanvasScript.Binary64
