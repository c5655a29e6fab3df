/-!
# Rounding exact numbers

Rationals are rounded to integers and to a fixed count of significant binary digits. Every binary
format of the library (the 53 digits of a double, the 24 of a single) goes through `nearest`.

They are what `round`, a quotient of integers and the conversions between numbers come down to where
scalars are doubles.

* `halfEven x` is the integer nearest to `x`; a number half way goes to the even one.
* `log2 x` is the exponent of the binade that holds a positive `x`:
  `2 ^ log2 x ≤ x < 2 ^ (log2 x + 1)`.
* `nearest bits x` keeps `bits` significant binary digits of `x`.

Out of scope: where the exponents of a format begin and end. `Scalar/Binary64` adds that to
`nearest`.
-/

namespace CanvasScript.Rounding

/-- The integer nearest to `x`, ties to the even one. -/
def halfEven (x : Rat) : Int :=
  let n := x.floor
  let rest := x - n
  if rest < 1 / 2 then n
  else if 1 / 2 < rest then n + 1
  else if n % 2 = 0 then n else n + 1

/-- The exponent of the greatest power of two that is at most a positive `x`. -/
def log2 (x : Rat) : Int :=
  let e : Int := (x.num.natAbs.log2 : Int) - (x.den.log2 : Int)
  if x < (2 : Rat) ^ e then e - 1 else e

/-- The multiple of `unit` nearest to `x`, ties to the even multiple. -/
def toMultiple (unit x : Rat) : Rat :=
  halfEven (x / unit) * unit

/-- The number with `bits` significant binary digits nearest to `x`, ties to the even last digit. -/
def nearest (bits : Nat) (x : Rat) : Rat :=
  if x = 0 then 0
  else toMultiple ((2 : Rat) ^ (log2 (if x < 0 then -x else x) + 1 - (bits : Int))) x

/-- The power of ten with a natural exponent. -/
def pow10 (k : Nat) : Nat := Nat.pow 10 k

theorem pow10_pos (k : Nat) : 0 < pow10 k := Nat.pow_pos (by decide)

/-- `x` rounded to `places` decimals and counted in units of the last one. -/
def scaled (places : Nat) (x : Rat) : Int :=
  halfEven (x * pow10 places)

@[simp] theorem halfEven_intCast (n : Int) : halfEven (n : Rat) = n := by
  have h : (n : Rat) - n = 0 := Rat.sub_self
  have half_pos : (0 : Rat) < 1 / 2 := by decide +kernel
  simp only [halfEven, Rat.floor_intCast, h, if_pos half_pos]

@[simp] theorem nearest_zero (bits : Nat) : nearest bits 0 = 0 := by simp [nearest]

example : halfEven (5 / 2) = 2 ∧ halfEven (7 / 2) = 4 ∧ halfEven (-5 / 2) = -2 := by decide +kernel
example : nearest 2 (7 / 8) = 1 ∧ nearest 2 (5 / 8) = 1 / 2 := by decide +kernel

end CanvasScript.Rounding
