import CanvasScript.Decimal.Digits

/-!
# Writing decimals

They are the texts of scalars: `floating` wherever one is written in full, `fixed` with the decimals
of a trace.

* `floating n e` writes `n · 10 ^ e`: in positions when the first digit stands between the fourth
  decimal and the sixteenth place before the point, with an exponent of at least two digits
  otherwise.
* `fixed` writes a count of decimals, and `significant` a count of digits without trailing zeros.
-/

namespace CanvasScript.Decimal

/-- Digits with a point before the last `places` of them. -/
def pointed (places : Nat) (s : List Char) : List Char :=
  let s := padLeft (places + 1) s
  if places = 0 then s else s.take (s.length - places) ++ '.' :: s.drop (s.length - places)

/-- `n` units of the last of `places` decimals. -/
def fixed (places n : Nat) : List Char :=
  pointed places (digits n)

/-- An exponent: its sign and at least two digits. -/
def exponent (e : Int) : List Char :=
  (if e < 0 then '-' else '+') :: padLeft 2 (digits e.natAbs)

/-- The decimal `n · 10 ^ e`, with a point or an exponent in any case. -/
def floating (n : Nat) (e : Int) : List Char :=
  let s := digits n
  let first : Int := (s.length : Int) + e - 1
  if -4 ≤ first ∧ first < 16 then
    if 0 ≤ e then s ++ List.replicate e.toNat '0' ++ ['.', '0']
    else pointed e.natAbs s
  else
    match s with
    | [c] => c :: 'e' :: exponent first
    | c :: rest => c :: '.' :: rest ++ 'e' :: exponent first
    | [] => []

/-- The digits without zeros at the end, nor a point left there. -/
def stripZeros (s : List Char) : List Char :=
  match (s.reverse.dropWhile (· == '0')) with
  | '.' :: rest => rest.reverse
  | rest => rest.reverse

example : floating 15 (-1) = ['1', '.', '5'] ∧
    floating 5 (-324) = ['5', 'e', '-', '3', '2', '4'] := by
  decide +kernel
example : floating 1 16 = ['1', 'e', '+', '1', '6'] ∧
    floating 1 (-4) = ['0', '.', '0', '0', '0', '1'] := by
  decide +kernel

end CanvasScript.Decimal
