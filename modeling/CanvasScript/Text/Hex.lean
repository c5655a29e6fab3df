/-!
# Hexadecimal digits

* `hexText width n` writes `n` in lower-case digits, with leading zeros up to `width`.
* `hexValue? c` reads one digit of either case.
-/

namespace CanvasScript.Text

/-- The lower-case digit of a value below sixteen. -/
def hexDigit (n : Nat) : Char :=
  if n < 10 then Char.ofNat (48 + n) else Char.ofNat (87 + n)

/-- The last `width` hexadecimal digits of `n`, put before `rest`. -/
def hexDigits : (width : Nat) → (n : Nat) → (rest : List Char) → List Char
  | 0, _, rest => rest
  | width + 1, n, rest => hexDigits width (n / 16) (hexDigit (n % 16) :: rest)

/-- The last `width` hexadecimal digits of `n`. -/
def hexText (width n : Nat) : String :=
  String.ofList (hexDigits width n [])

/-- The value of a hexadecimal digit. -/
def hexValue? (c : Char) : Option Nat :=
  let n := c.toNat
  if 48 ≤ n ∧ n ≤ 57 then some (n - 48)
  else if 97 ≤ n ∧ n ≤ 102 then some (n - 87)
  else if 65 ≤ n ∧ n ≤ 70 then some (n - 55)
  else none

/-- The value of a sequence of hexadecimal digits, if all are digits. -/
def hexNumber? (s : List Char) : Option Nat :=
  s.foldlM (fun value c => (hexValue? c).map (value * 16 + ·)) 0

example : hexDigits 4 0x2028 [] = ['2', '0', '2', '8'] ∧ hexNumber? ['f', 'F'] = some 255 := by
  decide

end CanvasScript.Text
