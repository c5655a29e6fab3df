import CanvasScript.Proofs.Binary64.Arithmetic
import CanvasScript.Proofs.Binary64.Encode

/-!
# Integers among the doubles

Below `2 ^ 53` every integer is a double, and above, every double is an integer.

* `toRat?_ofInt`: **an integer of at most `2 ^ 53` is converted exactly**.
* `countsTo`: **doubles count to `2 ^ 53`**.
* `whole?_eq_some`: **a double is found to equal an integer just when it does**.
-/

namespace CanvasScript.Binary64

open Float.Model (UnpackedFloat)
open Float.Model.UnpackedFloat

/-! ## Conversion -/

theorem canonical_nat {n : Nat} (h0 : 0 < n) (h : n < 2 ^ 53) :
    Canonical (n * 2 ^ (52 - n.log2)) ((n.log2 : Int) - 52) := by
  have hlog : n.log2 < 53 := (Nat.log2_lt h0.ne').mpr h
  have hle : 2 ^ n.log2 ≤ n := Nat.log2_self_le h0.ne'
  have hlt : n < 2 ^ (n.log2 + 1) := Nat.lt_log2_self
  have hpow : 2 ^ n.log2 * 2 ^ (52 - n.log2) = 2 ^ 52 := by
    rw [← pow_add]
    congr 1
    omega
  refine ⟨?_, by omega, by omega, Or.inl ?_⟩
  · calc n * 2 ^ (52 - n.log2)
        < 2 ^ (n.log2 + 1) * 2 ^ (52 - n.log2) := Nat.mul_lt_mul_of_pos_right hlt (by positivity)
      _ = 2 * (2 ^ n.log2 * 2 ^ (52 - n.log2)) := by ring
      _ = 2 ^ 53 := by rw [hpow]; rfl
  · exact hpow.symm.le.trans (Nat.mul_le_mul_right _ hle)

theorem magnitude_nat {n : Nat} (h0 : 0 < n) (h : n < 2 ^ 53) :
    magnitude (n * 2 ^ (52 - n.log2)) ((n.log2 : Int) - 52) = n := by
  have hlog : n.log2 < 53 := (Nat.log2_lt h0.ne').mpr h
  have hexp : (n.log2 : Int) - 52 = 0 - ((52 - n.log2 : Nat) : Int) := by omega
  rw [hexp, magnitude_mul_two_pow, magnitude_eq, zpow_zero, mul_one]

/-- The conversion of a natural. -/
theorem decode_toFloat {n : Nat} (h0 : 0 < n) (h : n < 2 ^ 53) :
    decode n.toUInt64.toFloat =
      .finite false (n * 2 ^ (52 - n.log2)) ((n.log2 : Int) - 52) := by
  have hc := canonical_nat h0 h
  have hpos : 0 < n * 2 ^ (52 - n.log2) := Nat.mul_pos h0 (by positivity)
  have htoNat : n.toUInt64.toNat = n := by
    rw [Nat.toUInt64, UInt64.toNat_ofNat', Nat.mod_eq_of_lt (by omega)]
  have hnorm : UnpackedFloat.ofUInt64 format n.toUInt64 =
      (Decoded.finite false (n * 2 ^ (52 - n.log2)) ((n.log2 : Int) - 52)).unpacked := by
    rw [unpacked_finite false hpos]
    unfold UnpackedFloat.ofUInt64 UnpackedFloat.ofNat UnpackedFloat.ofInt
    rw [htoNat]
    have hvalue : ((n : Int) : Rat) * 2 ^ (0 : Int) =
        signed false (magnitude (n * 2 ^ (52 - n.log2)) ((n.log2 : Int) - 52)) := by
      rw [magnitude_nat h0 h, zpow_zero, mul_one]
      rfl
    exact normalize_eq hpos hc hvalue _
  have hfloat : n.toUInt64.toFloat =
      ofDecoded (.finite false (n * 2 ^ (52 - n.log2)) ((n.log2 : Int) - 52)) := by
    show Float.ofModel (.pack (UnpackedFloat.ofUInt64 format n.toUInt64)) = _
    rw [hnorm]
    rfl
  rw [hfloat, decode_ofDecoded hc]

theorem ofNat_eq {n : Nat} (h : n < 2 ^ 53) :
    Float.ofNat n = n.toUInt64.toFloat * Float.ofBits 0x3FF0000000000000 := by
  show Float.ofScientific n false 0 = _
  unfold Float.ofScientific
  rw [dif_pos ⟨h, by decide⟩]
  rfl

theorem decode_unit : decode (Float.ofBits 0x3FF0000000000000) = one := by decide +kernel

theorem toRat?_ofNat {n : Nat} (h : n < 2 ^ 53) : toRat? (Float.ofNat n) = .ok n := by
  rcases Nat.eq_zero_or_pos n with rfl | h0
  · decide +kernel
  · rw [ofNat_eq h, toRat?_of_decode (decode_mul_one (decode_toFloat h0 h) decode_unit),
      magnitude_nat h0 h]
    rfl

/-- **An integer of at most `2 ^ 53` is converted exactly.** -/
theorem toRat?_ofInt {n : Int} (h : n.natAbs ≤ 2 ^ 53) : toRat? (ofInt n) = .ok n := by
  by_cases hn : n.natAbs < 2 ^ 53
  · have hofInt : ofInt n = Float.ofInt n := if_pos hn
    rw [hofInt]
    cases n with
    | ofNat n => exact toRat?_ofNat hn
    | negSucc n =>
      have hnat : toRat? (Float.ofNat (n + 1)) = .ok ((n + 1 : Nat) : Rat) := toRat?_ofNat hn
      rw [Int.cast_negSucc]
      exact toRat?_neg hnat
  · have hend : n = 2 ^ 53 ∨ n = -2 ^ 53 := by omega
    rcases hend with rfl | rfl
    · decide +kernel
    · decide +kernel

theorem toRat?_zero : toRat? (Scalar.zero : Float) = .ok 0 := toRat?_ofInt (n := 0) (by decide)

theorem toRat?_one : toRat? (Scalar.one : Float) = .ok 1 := toRat?_ofInt (n := 1) (by decide)

/-- A positive integer is the double of its canonical form. -/
theorem decode_ofInt {n : Nat} (h0 : 0 < n) (h : n < 2 ^ 53) :
    decode (ofInt n) = .finite false (n * 2 ^ (52 - n.log2)) ((n.log2 : Int) - 52) := by
  have hofInt : ofInt n = Float.ofNat n := if_pos h
  rw [hofInt, ofNat_eq h, decode_mul_one (decode_toFloat h0 h) decode_unit]

theorem ofInt_sub {i j : Int} (hi : 0 ≤ i) (hij : i ≤ j) (hj : j ≤ 2 ^ 53) :
    ofInt j - ofInt i = ofInt (j - i) := by
  have hvj : toRat? (ofInt j) = .ok j := toRat?_ofInt (by omega)
  have hvi : toRat? (ofInt i) = .ok i := toRat?_ofInt (by omega)
  obtain ⟨d, hd⟩ : ∃ d : Nat, j - i = d := ⟨(j - i).toNat, by omega⟩
  rw [hd]
  rcases Nat.eq_zero_or_pos d with rfl | h0
  · obtain rfl : j = i := by omega
    rw [sub_self_eq hvj]
    exact eq_of_toModel (by decide +kernel)
  · by_cases hlt : d < 2 ^ 53
    · have hc := canonical_nat h0 hlt
      have hpos : 0 < d * 2 ^ (52 - d.log2) := Nat.mul_pos h0 (by positivity)
      have hdiff : (j : Rat) - i =
          signed false (magnitude (d * 2 ^ (52 - d.log2)) (d.log2 - 52)) := by
        rw [magnitude_nat h0 hlt, ← Int.cast_sub, hd]
        rfl
      rw [sub_eq hvj hvi hpos hc hdiff]
      exact eq_of_decode (decode_ofDecoded hc) (decode_ofInt h0 hlt)
    · obtain rfl : i = 0 := by omega
      obtain rfl : j = 2 ^ 53 := by omega
      obtain rfl : d = 2 ^ 53 := by omega
      exact eq_of_toModel (by decide +kernel)

theorem abs_signed (negative : Bool) (m : Nat) (e : Int) :
    |signed negative (magnitude m e)| = magnitude m e := by
  cases negative
  · exact abs_of_nonneg (magnitude_nonneg m e)
  · exact (abs_neg _).trans (abs_of_nonneg (magnitude_nonneg m e))

/-- An integer that a double equals is within reach of the doubles. -/
theorem holds_of_toRat? {x : Float} {n : Int} (h : toRat? x = .ok n) : holds n = true := by
  obtain ⟨negative, m, e, -, hc, hn⟩ := decode_of_toRat? h
  have hm : (n.natAbs : Rat) = magnitude m e := by
    rw [Nat.cast_natAbs, Int.cast_abs, hn, abs_signed]
  unfold holds
  rw [hm, magnitudeBits_magnitude hc, decide_eq_true_eq]
  obtain ⟨hu, hle, hge, -⟩ := hc
  show _ < 2047 * 2 ^ 52
  omega

/-- **Doubles count to `2 ^ 53`.** -/
theorem countsTo : Scalar.CountsTo Float (2 ^ 53) where
  lt_iff {i j} hi hin hj hjn := by
    rw [← Int.cast_lt (R := Rat)]
    exact lt_iff (toRat?_ofInt (by omega)) (toRat?_ofInt (by omega))
  sub hi hij hj := ofInt_sub hi hij hj
  holds {i} hi hin := holds_of_toRat? (toRat?_ofInt (n := i) (by omega))
  round_mul_one {i} hi hin := by
    obtain ⟨n, m, e, hd, -, hr⟩ := decode_of_toRat? (toRat?_ofInt (n := i) (by omega))
    have hone : decode (Scalar.one : Float) = one := by decide +kernel
    have hprod := toRat?_of_decode (decode_mul_one hd hone)
    show (toRat? (ofInt i * Scalar.one)).map Rounding.halfEven = _
    rw [hprod, ← hr]
    exact congrArg Except.ok (Rounding.halfEven_intCast i)

/-! ## Doubles that equal integers -/

/-- Beyond `2 ^ 52` every double is an integer. -/
theorem eq_floor_of_le {x : Float} {r : Rat} (hx : toRat? x = .ok r) (hr : 2 ^ 52 ≤ |r|) :
    r = r.floor := by
  obtain ⟨negative, m, e, -, hc, rfl⟩ := decode_of_toRat? hx
  rw [abs_signed] at hr
  have he : 0 ≤ e := by
    by_contra hneg
    have hm : (m : Rat) < 2 ^ 53 := by exact_mod_cast hc.mantissa_lt
    have : magnitude m e < 2 ^ 52 := by
      calc magnitude m e
          = m * 2 ^ e := magnitude_eq m e
        _ ≤ m * 2 ^ (-1 : Int) :=
          mul_le_mul_of_nonneg_left (zpow_le_zpow_right₀ one_le_two (by omega)) (by positivity)
        _ < 2 ^ 53 * 2 ^ (-1 : Int) := mul_lt_mul_of_pos_right hm (by positivity)
        _ = 2 ^ 52 := by norm_num
    linarith
  lift e to Nat using he
  have hint : signed negative (magnitude m e) =
      ((if negative then -(m * 2 ^ e : Int) else (m * 2 ^ e : Int) : Int) : Rat) := by
    rw [magnitude_eq, zpow_natCast]
    cases negative <;> simp [signed]
  rw [hint, Rat.floor_intCast]

/-- The integer that a double equals is converted exactly. -/
theorem toRat?_ofInt_of_eq {x : Float} {n : Int} (h : toRat? x = .ok n) :
    toRat? (ofInt n) = .ok n := by
  by_cases hn : n.natAbs < 2 ^ 53
  · exact toRat?_ofInt hn.le
  · have hofInt : ofInt n = ofRat n := if_neg hn
    rw [hofInt]
    exact toRat?_ofRat h

theorem same_iff {x y : Float} {a b : Rat} (hx : toRat? x = .ok a) (hy : toRat? y = .ok b) :
    Scalar.same x y = true ↔ a = b := by
  unfold Scalar.same
  rw [Bool.and_eq_true, decide_eq_true_eq, decide_eq_true_eq, le_iff hx hy, le_iff hy hx]
  exact le_antisymm_iff.symm

theorem natAbs_floor_le {r : Rat} (h : |r| ≤ 2 ^ 52) : r.floor.natAbs ≤ 2 ^ 53 := by
  obtain ⟨hl, hu⟩ := abs_le.mp h
  have hlow : -2 ^ 52 ≤ r.floor := Rat.le_floor_iff.mpr (by exact_mod_cast hl)
  have hhigh : r.floor < 2 ^ 52 + 1 := Rat.floor_lt_iff.mpr (by push_cast; linarith)
  omega

/-- **A double is found to equal an integer just when it does**, however large the integer is. -/
theorem whole?_eq_some {x : Float} {n : Int} : Scalar.whole? x = some n ↔ toRat? x = .ok n := by
  refine ⟨fun h => ?_, fun h => ?_⟩
  · unfold Scalar.whole? at h
    split at h
    · rename_i k hfloor
      split at h
      · rename_i hsame
        obtain rfl : k = n := Option.some.inj h
        cases hx : toRat? x with
        | error fault =>
          have : Scalar.floor x = .error fault := congrArg (Except.map Rat.floor) hx
          rw [this] at hfloor
          cases hfloor
        | ok r =>
          have hr : Scalar.floor x = .ok r.floor := congrArg (Except.map Rat.floor) hx
          obtain rfl : r.floor = k := Except.ok.inj (hr.symm.trans hfloor)
          by_cases hbig : 2 ^ 52 ≤ |r|
          · exact congrArg Except.ok (eq_floor_of_le hx hbig)
          · have hsmall : r.floor.natAbs ≤ 2 ^ 53 := natAbs_floor_le (not_le.mp hbig).le
            exact congrArg Except.ok ((same_iff hx (toRat?_ofInt hsmall)).mp hsame)
      · cases h
    · cases h
  · have hfloor : Scalar.floor x = .ok n := by
      show (toRat? x).map Rat.floor = _
      rw [h]
      exact congrArg Except.ok (Rat.floor_intCast n)
    have hsame : Scalar.same x (Scalar.ofInt n) = true :=
      (same_iff h (toRat?_ofInt_of_eq h)).mpr rfl
    unfold Scalar.whole?
    rw [hfloor]
    exact if_pos hsame

end CanvasScript.Binary64
