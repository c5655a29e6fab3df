import CanvasScript.Decimal.Digits

/-!
# The length of integers

Texts of integers are read up to a fixed count of digits; a longer one is refused with a message
that tells its length.

The limit holds for the integers of program files, settings files and options, and for the channels
of styles.

Out of scope: the same limit on integers that are written, see `Value/Display`.
-/

namespace CanvasScript.Decimal

/-- The greatest count of digits that is read. -/
def digitLimit : Nat := 4300

/-- The text that reports an integer with more digits than are read. -/
def limitMessage (digits : Nat) : String :=
  "Exceeds the limit (4300 digits) for integer string conversion: value has " ++
    integerText digits ++ " digits; use sys.set_int_max_str_digits() to increase the limit"

end CanvasScript.Decimal
