import CanvasScript.Proofs.Binary64.Part
import CanvasScript.Proofs.Binary64.Product
import CanvasScript.Proofs.Decimal.Digits
import CanvasScript.Proofs.Timeline.Checked

/-!
# The range of the doubles

What a program computes of its numbers does not leave the finite doubles.

* `exists_toRat?_ofInt`: an integer within the finite doubles is converted to one of them.
* `zero_le_ofInt`: a count is converted to no less than zero, however large.
* `lt_of_holds`: such an integer has at most `1024` binary digits.
* `staysFinite`: **doubles stay finite** in all that the steps of a program compute.

Out of scope: products of two large doubles and sums of them. The frames of a program may overflow
to infinities, which is no failure.
-/

namespace CanvasScript.Binary64

open Rounding

/-! ## Integers -/

/-- Bits stand for a finite double unless their exponent is the last one. -/
theorem exists_decodeBits {bits : Nat} (h : bits / Nat.pow 2 52 % 2048 ≠ 2047) :
    ∃ m e, decodeBits bits = .finite (signBit bits) m e := by
  unfold decodeBits
  simp only [if_neg h]
  split
  · exact ⟨_, _, rfl⟩
  · exact ⟨_, _, rfl⟩

/-- Bits below those of infinity encode a finite double. -/
theorem exists_toRat?_encode (negative : Bool) {r : Rat}
    (h : magnitudeBits r < 2047 * Nat.pow 2 52) : ∃ a, toRat? (encode negative r) = .ok a := by
  have hpow : Nat.pow 2 52 = 2 ^ 52 := rfl
  have hpow' : Nat.pow 2 63 = 2 ^ 63 := rfl
  rw [hpow] at h
  have hfield : ((if negative then Nat.pow 2 63 else 0) + magnitudeBits r) / Nat.pow 2 52 % 2048 ≠
      2047 := by
    rw [hpow, hpow']
    split <;> omega
  have hbits : (if negative then Nat.pow 2 63 else 0) + magnitudeBits r < 2 ^ 64 := by
    rw [hpow']
    split <;> omega
  obtain ⟨m, e, hdecode⟩ := exists_decodeBits hfield
  exact ⟨_, toRat?_of_decode (decode_ofBits hbits hdecode)⟩

/-- **An integer within the finite doubles is converted to one of them.** -/
theorem exists_toRat?_ofInt {n : Int} (h : holds n = true) : ∃ a, toRat? (ofInt n) = .ok a := by
  by_cases hsmall : n.natAbs < 2 ^ 53
  · exact ⟨n, toRat?_ofInt hsmall.le⟩
  · have hofInt : ofInt n = ofRat n := if_neg hsmall
    have hbits := of_decide_eq_true h
    rw [Nat.cast_natAbs, Int.cast_abs] at hbits
    rw [hofInt]
    unfold ofRat
    split
    · rename_i hneg
      rw [abs_of_neg hneg] at hbits
      exact exists_toRat?_encode true hbits
    · rename_i hneg
      rw [abs_of_nonneg (not_lt.mp hneg)] at hbits
      exact exists_toRat?_encode false hbits

/-- Bits up to those of infinity stand for no less than zero. -/
theorem zero_le_ofBits {bits : Nat} (h : bits ≤ 2047 * Nat.pow 2 52) :
    ofInt 0 ≤ Float.ofBits (UInt64.ofNat bits) := by
  rcases h.eq_or_lt with rfl | hlt
  · decide +kernel
  · have hpow : Nat.pow 2 52 = 2 ^ 52 := rfl
    have hpow' : Nat.pow 2 63 = 2 ^ 63 := rfl
    have hsign : signBit bits = false := by
      unfold signBit
      rw [hpow', Nat.div_eq_of_lt (by omega)]
      rfl
    have hfinite : bits / Nat.pow 2 52 % 2048 ≠ 2047 := by rw [hpow]; omega
    obtain ⟨m, e, hdecode⟩ := exists_decodeBits hfinite
    rw [hsign] at hdecode
    have hvalue := toRat?_of_decode (decode_ofBits (by omega) hdecode)
    exact (le_iff toRat?_zero hvalue).mpr (magnitude_nonneg m e)

/-- **A count is converted to no less than zero**, also beyond the finite doubles. -/
theorem zero_le_ofInt (n : Nat) : ofInt 0 ≤ ofInt n := by
  by_cases hsmall : n < 2 ^ 53
  · refine (le_iff toRat?_zero (toRat?_ofInt (n := n) hsmall.le)).mpr ?_
    exact_mod_cast n.zero_le
  · have hlarge : (2 : Rat) ^ (53 : Int) ≤ n := by exact_mod_cast not_lt.mp hsmall
    have hpos : (0 : Rat) < n := lt_of_lt_of_le (by positivity) hlarge
    have hlog : 53 < log2 n + 1 :=
      (zpow_lt_zpow_iff_right₀ (one_lt_two (α := Rat))).mp (hlarge.trans_lt (lt_two_zpow_log2 hpos))
    have hofInt : ofInt n = ofRat n := if_neg hsmall
    have hofRat : ofRat n = encode false n := if_neg (not_lt.mpr hpos.le)
    rw [hofInt, hofRat]
    unfold encode
    rw [if_neg (by decide), Nat.zero_add]
    refine zero_le_ofBits ?_
    unfold magnitudeBits
    dsimp only
    rw [if_neg (not_le.mpr hpos), if_neg (by omega)]
    exact min_le_right _ _

/-- **An integer within the finite doubles has at most `1024` binary digits.** -/
theorem lt_of_holds {n : Int} (h : holds n = true) : n.natAbs < 2 ^ 1024 := by
  by_contra hlarge
  have hle : (2 : Rat) ^ (1024 : Int) ≤ n.natAbs := by exact_mod_cast not_lt.mp hlarge
  have hpos : (0 : Rat) < n.natAbs := lt_of_lt_of_le (by positivity) hle
  have hlog : 1024 < log2 n.natAbs + 1 :=
    (zpow_lt_zpow_iff_right₀ (one_lt_two (α := Rat))).mp (hle.trans_lt (lt_two_zpow_log2 hpos))
  have hexponent : max (log2 (n.natAbs : Rat) - 52) (-1074) = log2 (n.natAbs : Rat) - 52 := by
    omega
  have hfull : 2 ^ 52 ≤ halfEven ((n.natAbs : Rat) / 2 ^ (log2 (n.natAbs : Rat) - 52)) := by
    refine le_halfEven ((le_div_iff₀ (by positivity)).mpr ?_)
    calc (((2 ^ 52 : Int) : Rat)) * 2 ^ (log2 (n.natAbs : Rat) - 52)
        = 2 ^ log2 (n.natAbs : Rat) := by
          rw [zpow_sub₀ two_ne_zero]
          push_cast
          field_simp
      _ ≤ n.natAbs := two_zpow_log2_le hpos
  have hbits : ¬ magnitudeBits (n.natAbs : Rat) < 2047 * Nat.pow 2 52 := by
    have hpow : Nat.pow 2 52 = 2 ^ 52 := rfl
    unfold magnitudeBits
    simp only [if_neg (not_le.mpr hpos), hexponent, hpow]
    rw [if_neg (by omega)]
    omega
  exact hbits (of_decide_eq_true h)

/-- An integer within the finite doubles has fewer decimal digits than may be written. -/
theorem length_digits_le {n : Int} (h : holds n = true) :
    (Decimal.digits n.natAbs).length ≤ Decimal.digitLimit :=
  (Decimal.length_digits_le (by decide) (lt_of_holds h)).trans (by decide)

/-! ## Parts and angles -/

/-- A part of a finite double is finite. -/
theorem isFinite_mul {x y : Float} {b : Rat} (hx : x.isFinite = true) (hy : toRat? y = .ok b)
    (hb : |b| ≤ 1) : (x * y).isFinite = true := by
  obtain ⟨a, ha⟩ := isFinite_iff.mp hx
  obtain ⟨r, hr, -⟩ := exists_toRat?_mul ha hy hb
  exact isFinite_iff.mpr ⟨r, hr⟩

/-- A degree is less than one radian. -/
theorem exists_toRat?_degree :
    ∃ b, toRat? (Scalar.pi / Scalar.ofInt 180 : Float) = .ok b ∧ |b| ≤ 1 := by
  have hdegree : ((toRat? (Scalar.pi / Scalar.ofInt 180 : Float)).map
      fun q => decide (|q| ≤ 1)).toOption = some true := by decide +kernel
  obtain ⟨b, hb, hle⟩ := map_eq_ok.mp (toOption_eq_some.mp hdegree)
  exact ⟨b, hb, of_decide_eq_true hle⟩

/-- **Doubles stay finite** in all that the steps of a program compute. -/
theorem staysFinite : Scalar.StaysFinite Float where
  ofInt h := isFinite_iff.mpr (exists_toRat?_ofInt h)
  holds_channel hlow hhigh := countsTo.holds hlow (by omega)
  mul_unitClamp hx t := by
    obtain ⟨h0, h1⟩ := part_mem (decode t)
    exact isFinite_mul hx (toRat?_unitClamp t) ((abs_of_nonneg h0).le.trans h1)
  radians hx := by
    obtain ⟨b, hb, hle⟩ := exists_toRat?_degree
    exact isFinite_mul hx hb hle
  round hx := by
    obtain ⟨r, hr⟩ := isFinite_iff.mp hx
    exact ⟨_, congrArg (Except.map halfEven) hr⟩
  whole? h := holds_of_toRat? (whole?_eq_some.mp h)
  digits := length_digits_le

end CanvasScript.Binary64
