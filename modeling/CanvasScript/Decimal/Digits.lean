/-!
# Decimal digits of naturals and integers

They are the texts of integers, without a limit on their digits (`Decimal/Limit`).

* `digits n` writes a natural without leading zeros, and `value` reads digits back.
* `integer n` puts a minus sign before the digits of a negative integer.
-/

namespace CanvasScript.Decimal

/-- The digit of a value below ten. -/
def digit (n : Nat) : Char := Char.ofNat (48 + n)

/-- The decimal digits of a natural, without leading zeros. -/
def digits (n : Nat) : List Char :=
  if n < 10 then [digit n] else digits (n / 10) ++ [digit (n % 10)]
termination_by n

/-- The natural that a sequence of digits writes. -/
def value (s : List Char) : Nat :=
  s.foldl (fun n c => n * 10 + (c.toNat - 48)) 0

/-- The digits of an integer, behind a minus sign when it is negative. -/
def integer (n : Int) : List Char :=
  if n < 0 then '-' :: digits n.natAbs else digits n.natAbs

/-- The text of an integer. -/
def integerText (n : Int) : String := String.ofList (integer n)

/-- Zeros in front, up to a width. -/
def padLeft (width : Nat) (s : List Char) : List Char :=
  List.replicate (width - s.length) '0' ++ s

theorem digits_ne_nil (n : Nat) : digits n ≠ [] := by
  rw [digits]
  split <;> simp

theorem toNat_digit {n : Nat} (h : n < 10) : (digit n).toNat = n + 48 := by
  have : ∀ m : Fin 10, (digit m.1).toNat = m.1 + 48 := by decide
  exact this ⟨n, h⟩

/-- Reading the digits of a natural gives it back. -/
theorem value_digits (n : Nat) : value (digits n) = n := by
  induction n using Nat.strongRecOn with
  | _ n ih =>
    rw [digits]
    split
    · next h => simp [value, toNat_digit h]
    · next h =>
      have hlt : n / 10 < n := by omega
      have hm : n % 10 < 10 := by omega
      have hv := ih _ hlt
      simp only [value] at hv ⊢
      rw [List.foldl_append, hv]
      simp [toNat_digit hm]
      omega

end CanvasScript.Decimal
