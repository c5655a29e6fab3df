import CanvasScript.Scalar.Binary64
import Mathlib.Algebra.Order.Field.Power
import Mathlib.Data.Rat.Cast.Order
import Mathlib.Tactic.FieldSimp
import Mathlib.Tactic.Linarith
import Mathlib.Tactic.NormNum
import Mathlib.Tactic.Ring

/-!
# Unpacked doubles

The operations on doubles go through an unpacked form: a sign, a mantissa and an exponent. Every
double has exactly one form in which the mantissa is as long as the format allows (`Canonical`), and
there the operations are those of the rationals as long as their result has such a form too.

* `pack_toNat`: **packing a canonical form gives its bits**.
* `round_eq` and `roundWithAccuracy_eq`: **rounding a number that is representable changes nothing
  but its form**.
* `magnitude_lt_of_exponent_lt`: the order of magnitudes is the one of exponents, then mantissas.
-/

namespace CanvasScript.Binary64

open Float.Model (Format UnpackedFloat totalExponent)
open Float.Model.UnpackedFloat

/-- The format of doubles. -/
abbrev format : Format := Format.binary64

/-- A mantissa that is as long as the format allows, with its exponent. -/
structure Canonical (m : Nat) (e : Int) : Prop where
  mantissa_lt : m < 2 ^ 53
  le_exponent : -1074 ≤ e
  exponent_le : e ≤ 971
  full : 2 ^ 52 ≤ m ∨ e = -1074

theorem canonical_zero : Canonical 0 (-1074) := ⟨by decide, le_rfl, by decide, .inr rfl⟩

theorem magnitude_eq (m : Nat) (e : Int) : magnitude m e = (m : Rat) * (2 : Rat) ^ e := by
  unfold magnitude
  split
  · rename_i h
    lift e to Nat using h
    simp
  · rename_i h
    obtain ⟨k, rfl⟩ : ∃ k : Nat, e = -(k : Int) := ⟨e.natAbs, by omega⟩
    rw [Int.natAbs_neg, Int.natAbs_natCast, zpow_neg, zpow_natCast, Rat.mkRat_eq_div,
      div_eq_mul_inv]
    simp

theorem magnitude_nonneg (m : Nat) (e : Int) : 0 ≤ magnitude m e := by
  rw [magnitude_eq]
  positivity

theorem magnitude_pos {m : Nat} (hm : 0 < m) (e : Int) : 0 < magnitude m e := by
  rw [magnitude_eq]
  positivity

/-- Moving binary digits from the exponent into the mantissa. -/
theorem magnitude_mul_two_pow (m : Nat) (e : Int) (k : Nat) :
    magnitude (m * 2 ^ k) (e - k) = magnitude m e := by
  rw [magnitude_eq, magnitude_eq, zpow_sub₀ two_ne_zero, zpow_natCast]
  push_cast
  field_simp

/-! ## Order -/

/-- A greater exponent outweighs every mantissa. -/
theorem magnitude_lt_of_exponent_lt {m₁ m₂ : Nat} {e₁ e₂ : Int} (h₁ : Canonical m₁ e₁)
    (h₂ : Canonical m₂ e₂) (h : e₁ < e₂) : magnitude m₁ e₁ < magnitude m₂ e₂ := by
  have hfull : 2 ^ 52 ≤ m₂ := h₂.full.resolve_right (by have := h₁.le_exponent; omega)
  have hm₁ : (m₁ : Rat) < 2 ^ 53 := by exact_mod_cast h₁.mantissa_lt
  have hm₂ : (2 : Rat) ^ 52 ≤ m₂ := by exact_mod_cast hfull
  rw [magnitude_eq, magnitude_eq]
  calc (m₁ : Rat) * 2 ^ e₁
      < 2 ^ 53 * 2 ^ e₁ := mul_lt_mul_of_pos_right hm₁ (by positivity)
    _ = 2 ^ 52 * 2 ^ (e₁ + 1) := by rw [zpow_add₀ two_ne_zero]; ring
    _ ≤ 2 ^ 52 * 2 ^ e₂ :=
      mul_le_mul_of_nonneg_left (zpow_le_zpow_right₀ one_le_two (by omega)) (by positivity)
    _ ≤ m₂ * 2 ^ e₂ := mul_le_mul_of_nonneg_right hm₂ (by positivity)

theorem magnitude_lt_iff_mantissa {m₁ m₂ : Nat} (e : Int) :
    magnitude m₁ e < magnitude m₂ e ↔ m₁ < m₂ := by
  rw [magnitude_eq, magnitude_eq, mul_lt_mul_iff_left₀ (by positivity : (0 : Rat) < 2 ^ e)]
  exact Nat.cast_lt

/-- **Magnitudes in canonical form compare by exponent, then by mantissa.** -/
theorem compare_then_eq {m₁ m₂ : Nat} {e₁ e₂ : Int} (h₁ : Canonical m₁ e₁)
    (h₂ : Canonical m₂ e₂) :
    (compare e₁ e₂).then (compare m₁ m₂) = compare (magnitude m₁ e₁) (magnitude m₂ e₂) := by
  rcases lt_trichotomy e₁ e₂ with h | h | h
  · rw [compare_lt_iff_lt.mpr h, compare_lt_iff_lt.mpr (magnitude_lt_of_exponent_lt h₁ h₂ h)]
    rfl
  · subst h
    rw [compare_eq_iff_eq.mpr rfl, Ordering.then]
    rcases lt_trichotomy m₁ m₂ with hm | hm | hm
    · rw [compare_lt_iff_lt.mpr hm, compare_lt_iff_lt.mpr ((magnitude_lt_iff_mantissa e₁).mpr hm)]
    · rw [hm, compare_eq_iff_eq.mpr rfl, compare_eq_iff_eq.mpr rfl]
    · rw [compare_gt_iff_gt.mpr hm, compare_gt_iff_gt.mpr ((magnitude_lt_iff_mantissa e₁).mpr hm)]
  · rw [compare_gt_iff_gt.mpr h, compare_gt_iff_gt.mpr (magnitude_lt_of_exponent_lt h₂ h₁ h)]
    rfl

/-! ## Packing -/

/-- The sign of a sign bit. -/
def signOf (negative : Bool) : Sign := if negative then .negative else .positive

/-- The unpacked form of what a double stands for. -/
def Decoded.unpacked : Decoded → UnpackedFloat
  | .finite negative m e =>
    if h : m = 0 then .zero (signOf negative)
    else .finite (signOf negative) m e (Nat.pos_of_ne_zero h)
  | .infinite negative => .infinity (signOf negative)
  | .undefined => .notANumber

theorem unpackMantissa_toNat (b : BitVec 64) :
    (@unpackMantissa format b).toNat = b.toNat % 2 ^ 52 := by
  simp [unpackMantissa, BitVec.extractLsb]

theorem unpackExponent_toNat (b : BitVec 64) :
    (@unpackExponent format b).toNat = b.toNat / 2 ^ 52 % 2048 := by
  simp [unpackExponent, BitVec.extractLsb, Nat.shiftRight_eq_div_pow]

theorem unpackSign_toNat (b : BitVec 64) :
    (@unpackSign format b).toNat = b.toNat / 2 ^ 63 % 2 := by
  show (BitVec.extractLsb 63 63 b).toNat = _
  simp [BitVec.extractLsb, Nat.shiftRight_eq_div_pow]

theorem finite_congr (s : Sign) {m m' : Nat} {e e' : Int} {h : 0 < m} {h' : 0 < m'}
    (hm : m = m') (he : e = e') : finite s m e h = finite s m' e' h' := by
  subst hm he
  rfl

theorem unpacked_finite (negative : Bool) {m : Nat} (hm : 0 < m) (e : Int) :
    (Decoded.finite negative m e).unpacked = finite (signOf negative) m e hm :=
  dif_neg hm.ne'

/-- The implicit digit of a mantissa. -/
theorem toNat_one_append (b : BitVec 52) : (1#1 ++ b).toNat = b.toNat + 2 ^ 52 := by
  rw [BitVec.toNat_append, ← Nat.shiftLeft_add_eq_or_of_lt b.isLt, Nat.add_comm]
  rfl

theorem ofBitVec_unpackSign (b : BitVec 64) :
    Sign.ofBitVec (@unpackSign format b) = signOf (signBit b.toNat) := by
  have h := unpackSign_toNat b
  unfold Sign.ofBitVec signOf signBit
  by_cases hs : b.toNat / 2 ^ 63 % 2 = 1
  · rw [if_neg, if_pos]
    · exact beq_iff_eq.mpr hs
    · intro hz
      rw [hz, hs] at h
      exact absurd h (by decide)
  · have hz : b.toNat / 2 ^ 63 % 2 = 0 := by omega
    rw [if_pos, if_neg]
    · exact fun ht => hs (beq_iff_eq.mp ht)
    · exact BitVec.eq_of_toNat_eq (h.trans hz)

/-- **The fields of sixty-four bits are read alike by both views.** -/
theorem unpack_eq (b : BitVec 64) : unpack format b = (decodeBits b.toNat).unpacked := by
  have hm := unpackMantissa_toNat b
  have he := unpackExponent_toNat b
  have hexp : (@unpackExponent format b = -1#_) ↔ b.toNat / 2 ^ 52 % 2048 = 2047 := by
    rw [← BitVec.toNat_inj, he]
    exact Iff.rfl
  have hzero : (@unpackExponent format b = 0#_) ↔ b.toNat / 2 ^ 52 % 2048 = 0 := by
    rw [← BitVec.toNat_inj, he]
    exact Iff.rfl
  have hman : (@unpackMantissa format b = 0#_) ↔ b.toNat % 2 ^ 52 = 0 := by
    rw [← BitVec.toNat_inj, hm]
    exact Iff.rfl
  unfold unpack
  dsimp only
  by_cases hmax : b.toNat / 2 ^ 52 % 2048 = 2047
  · have hdecode : decodeBits b.toNat =
        if b.toNat % 2 ^ 52 = 0 then .infinite (signBit b.toNat) else .undefined := if_pos hmax
    rw [if_pos (hexp.mpr hmax), hdecode]
    by_cases hfraction : b.toNat % 2 ^ 52 = 0
    · rw [if_pos (hman.mpr hfraction), if_pos hfraction, ofBitVec_unpackSign]
      rfl
    · rw [if_neg (mt hman.mp hfraction), if_neg hfraction]
      rfl
  · rw [if_neg (mt hexp.mp hmax)]
    by_cases hsubnormal : b.toNat / 2 ^ 52 % 2048 = 0
    · have hdecode : decodeBits b.toNat =
          .finite (signBit b.toNat) (b.toNat % 2 ^ 52) (-1074) :=
        (if_neg hmax).trans (if_pos hsubnormal)
      rw [if_pos (hzero.mpr hsubnormal), hdecode]
      by_cases hfraction : b.toNat % 2 ^ 52 = 0
      · rw [dif_pos (hman.mpr hfraction), ofBitVec_unpackSign, hfraction]
        rfl
      · rw [dif_neg (mt hman.mp hfraction), unpacked_finite _ (Nat.pos_of_ne_zero hfraction),
          ofBitVec_unpackSign]
        refine finite_congr _ hm ?_
        rw [he, hsubnormal]
        rfl
    · have hdecode : decodeBits b.toNat = .finite (signBit b.toNat) (b.toNat % 2 ^ 52 + 2 ^ 52)
          ((b.toNat / 2 ^ 52 % 2048 : Nat) - 1075) := (if_neg hmax).trans (if_neg hsubnormal)
      rw [if_neg (mt hzero.mp hsubnormal), hdecode,
        unpacked_finite _ (Nat.add_pos_right _ (by decide)), ofBitVec_unpackSign]
      refine finite_congr _ ?_ ?_
      · rw [toNat_one_append, hm]
      · rw [he]
        show ((b.toNat / 2 ^ 52 % 2048 : Nat) : Int) - (1023 + 52) =
          ((b.toNat / 2 ^ 52 % 2048 : Nat) : Int) - 1075
        omega

theorem decodeBits_canonical {bits : Nat} {negative : Bool} {m : Nat} {e : Int}
    (h : decodeBits bits = .finite negative m e) : Canonical m e := by
  unfold decodeBits at h
  have hfield : bits / Nat.pow 2 52 % 2048 < 2048 := Nat.mod_lt _ (by decide)
  have hfraction : bits % Nat.pow 2 52 < 2 ^ 52 := Nat.mod_lt _ (by decide)
  have hpow : Nat.pow 2 52 = 2 ^ 52 := rfl
  simp only at h
  split at h
  · split at h <;> cases h
  · split at h
    · cases h
      exact ⟨by omega, by omega, by omega, Or.inr rfl⟩
    · cases h
      exact ⟨by omega, by omega, by omega, Or.inl (by omega)⟩

/-- The bits of a magnitude in canonical form. A full mantissa runs into the exponent. -/
def bitsOf (negative : Bool) (m : Nat) (e : Int) : Nat :=
  (if negative then 2 ^ 63 else 0) + ((e + 1074).toNat * 2 ^ 52 + m)

theorem bitsOf_lt {negative : Bool} {m : Nat} {e : Int} (h : Canonical m e) :
    bitsOf negative m e < 2 ^ 64 := by
  obtain ⟨hm, hl, hu, -⟩ := h
  unfold bitsOf
  split <;> omega

theorem decodeBits_bitsOf {negative : Bool} {m : Nat} {e : Int} (h : Canonical m e) :
    decodeBits (bitsOf negative m e) = .finite negative m e := by
  obtain ⟨hm, hl, hu, hfull⟩ := h
  obtain ⟨k, rfl⟩ : ∃ k : Nat, e = (k : Int) - 1074 := ⟨(e + 1074).toNat, by omega⟩
  have hbits : bitsOf negative m (k - 1074) =
      (if negative then 2 ^ 63 else 0) + (k * 2 ^ 52 + m) := by
    unfold bitsOf
    rw [sub_add_cancel, Int.toNat_natCast]
  have hpow : Nat.pow 2 52 = 2 ^ 52 := rfl
  have hpow' : Nat.pow 2 63 = 2 ^ 63 := rfl
  have hsign : signBit (bitsOf negative m (k - 1074)) = negative := by
    rw [hbits]
    unfold signBit
    cases negative
    · rw [beq_eq_false_iff_ne]
      simp only [hpow', Bool.false_eq_true, if_false]
      omega
    · rw [beq_iff_eq]
      simp only [hpow', if_true]
      omega
  have hfield : bitsOf negative m (k - 1074) / Nat.pow 2 52 % 2048 =
      if 2 ^ 52 ≤ m then k + 1 else 0 := by
    rw [hbits, hpow]
    by_cases hm' : 2 ^ 52 ≤ m
    · rw [if_pos hm']
      split <;> omega
    · rw [if_neg hm']
      split <;> omega
  have hfraction : bitsOf negative m (k - 1074) % Nat.pow 2 52 =
      if 2 ^ 52 ≤ m then m - 2 ^ 52 else m := by
    rw [hbits, hpow]
    by_cases hm' : 2 ^ 52 ≤ m
    · rw [if_pos hm']
      split <;> omega
    · rw [if_neg hm']
      split <;> omega
  unfold decodeBits
  simp only [hsign, hfield, hfraction]
  by_cases hm' : 2 ^ 52 ≤ m
  · simp only [if_pos hm']
    rw [if_neg (by omega), if_neg (by omega), hpow, Nat.sub_add_cancel hm']
    congr 1
    push_cast
    ring
  · obtain rfl : k = 0 := by omega
    simp only [if_neg hm']
    rfl

/-- The fields of a finite number make up its bits. -/
theorem eq_bitsOf {bits : Nat} {negative : Bool} {m : Nat} {e : Int} (hbits : bits < 2 ^ 64)
    (h : decodeBits bits = .finite negative m e) : bits = bitsOf negative m e := by
  have hpow : Nat.pow 2 52 = 2 ^ 52 := rfl
  have hsign : (if signBit bits then 2 ^ 63 else 0) = bits / 2 ^ 63 * 2 ^ 63 := by
    unfold signBit
    have hpow' : Nat.pow 2 63 = 2 ^ 63 := rfl
    rw [hpow']
    by_cases hb : bits / 2 ^ 63 % 2 = 1
    · rw [if_pos (beq_iff_eq.mpr hb)]
      omega
    · rw [if_neg (fun ht => hb (beq_iff_eq.mp ht))]
      omega
  unfold decodeBits at h
  simp only [hpow] at h
  split at h
  · split at h <;> cases h
  · split at h
    · cases h
      rw [bitsOf, hsign]
      omega
    · cases h
      rw [bitsOf, hsign]
      omega

theorem packComponents_toNat (negative : Bool) (f : BitVec 11) (m : BitVec 52) :
    (packComponents format (signOf negative) f m).toNat =
      (if negative then 2 ^ 63 else 0) + (f.toNat * 2 ^ 52 + m.toNat) := by
  have hf := f.isLt
  have hm := m.isLt
  show ((signOf negative).toBitVec ++ f ++ m).toNat = _
  rw [BitVec.toNat_append, ← Nat.shiftLeft_add_eq_or_of_lt hm, BitVec.toNat_append,
    ← Nat.shiftLeft_add_eq_or_of_lt hf, Nat.shiftLeft_eq, Nat.shiftLeft_eq]
  cases negative
  · show (0 * 2 ^ 11 + f.toNat) * 2 ^ 52 + m.toNat = 0 + (f.toNat * 2 ^ 52 + m.toNat)
    ring
  · show (1 * 2 ^ 11 + f.toNat) * 2 ^ 52 + m.toNat = 2 ^ 63 + (f.toNat * 2 ^ 52 + m.toNat)
    ring

theorem log2_eq_of_full {m : Nat} (hl : 2 ^ 52 ≤ m) (hu : m < 2 ^ 53) : m.log2 = 52 :=
  (Nat.log2_eq_iff (by omega)).mpr ⟨hl, hu⟩

/-- **Packing a canonical form gives its bits.** -/
theorem pack_toNat {negative : Bool} {m : Nat} {e : Int} (hm : 0 < m) (h : Canonical m e) :
    (pack format (finite (signOf negative) m e hm)).toNat = bitsOf negative m e := by
  obtain ⟨hu, hle, hge, hfull⟩ := h
  have hbias : e + (format.exponentBias : Int) + (format.mantissaBitsWithoutImplicit : Int) =
      e + 1075 := by
    show e + 1023 + 52 = e + 1075
    ring
  have hrange : ¬ 2 ^ format.exponentBits ≤ (e + 1075).toNat + 1 := by
    show ¬ 2 ^ 11 ≤ (e + 1075).toNat + 1
    omega
  unfold pack bitsOf
  simp only [hbias, if_neg hrange]
  by_cases hl : 2 ^ 52 ≤ m
  · have hlog : m.log2 + 1 = format.mantissaBits := by
      rw [log2_eq_of_full hl hu]
      rfl
    rw [if_pos hlog, packComponents_toNat, BitVec.toNat_ofNat, BitVec.toNat_ofNat]
    show _ + ((e + 1075).toNat % 2 ^ 11 * 2 ^ 52 + m % 2 ^ 52) = _
    omega
  · have hlog : ¬ m.log2 + 1 = format.mantissaBits := by
      have : m.log2 < 52 := (Nat.log2_lt hm.ne').mpr (by omega)
      show ¬ m.log2 + 1 = 53
      omega
    rw [if_neg hlog, packComponents_toNat, BitVec.toNat_ofNat, BitVec.toNat_ofNat]
    show _ + (0 % 2 ^ 11 * 2 ^ 52 + m % 2 ^ 52) = _
    omega

/-! ## Rounding -/

theorem log2_mul_two_pow {m : Nat} (hm : 0 < m) (k : Nat) : (m * 2 ^ k).log2 = m.log2 + k := by
  induction k with
  | zero => simp
  | succ k ih =>
    have hpos : m * 2 ^ k ≠ 0 := (Nat.mul_pos hm (by positivity)).ne'
    rw [pow_succ, ← mul_assoc, mul_comm _ 2, Nat.log2_two_mul hpos, ih]
    ring

theorem totalExponent_mul_two_pow {m : Nat} (hm : 0 < m) (e : Int) (k : Nat) :
    totalExponent (m * 2 ^ k) (e - k) = totalExponent m e := by
  unfold totalExponent
  rw [log2_mul_two_pow hm]
  push_cast
  ring

/-- A canonical form has the exponent that the format aims at. -/
theorem targetExponent_eq {m : Nat} {e : Int} (hm : 0 < m) (h : Canonical m e) :
    format.targetExponent (totalExponent m e) = e := by
  obtain ⟨hu, hle, hge, hfull⟩ := h
  show max ((m.log2 : Int) + 1 + e - 53) (-1074) = e
  rcases le_or_gt (2 ^ 52) m with hl | hl
  · rw [log2_eq_of_full hl hu]
    omega
  · have : m.log2 < 52 := (Nat.log2_lt hm.ne').mpr hl
    omega

/-- Digits that are zero are shifted out without a trace. -/
theorem shiftRight_mul_two_pow (m k : Nat) :
    (⟨m * 2 ^ k, false, false⟩ : ExtendedMantissa) >>> k = ⟨m, false, false⟩ := by
  show k.repeat ExtendedMantissa.shiftRightOne ⟨m * 2 ^ k, false, false⟩ = _
  induction k generalizing m with
  | zero => simp [Nat.repeat]
  | succ k ih =>
    have hm : m * 2 ^ (k + 1) = (m * 2) * 2 ^ k := by ring
    rw [Nat.repeat, hm, ih]
    simp [ExtendedMantissa.shiftRightOne]

/-- **Shifting leads back to the canonical form** from any with more zeros. -/
theorem shiftToTargetExponent_eq {m : Nat} {e : Int} (hm : 0 < m) (h : Canonical m e) (k : Nat) :
    shiftToTargetExponent format (m * 2 ^ k) (e - k) .exact = (⟨m, false, false⟩, e) := by
  have hshift : (e - (e - (k : Int))).toNat = k := by omega
  unfold shiftToTargetExponent shiftToExponent
  simp only [totalExponent_mul_two_pow hm, targetExponent_eq hm h, hshift,
    ExtendedMantissa.ofMantissaAndAccuracy, shiftRight_mul_two_pow, sub_add_cancel]

/-- **Rounding a number that is representable drops zeros only.** -/
theorem roundWithAccuracy_eq (s : Sign) {m : Nat} {e : Int} (hm : 0 < m) (h : Canonical m e)
    (k : Nat) :
    roundWithAccuracy format s (m * 2 ^ k) (e - k) .exact = .finite s m e hm := by
  have hsecond : shiftToTargetExponent format m e .exact = (⟨m, false, false⟩, e) := by
    have := shiftToTargetExponent_eq hm h 0
    rwa [pow_zero, mul_one, Nat.cast_zero, sub_zero] at this
  have hrounded : (⟨m, false, false⟩ : ExtendedMantissa).roundedMantissa = m := rfl
  unfold roundWithAccuracy
  rw [shiftToTargetExponent_eq hm h k]
  dsimp only
  rw [hrounded, hsecond]
  exact dif_neg hm.ne'

/-- **Rounding a number that is representable changes its form only.** -/
theorem round_eq (s : Sign) {m M : Nat} {e E : Int} (hm : 0 < m) (h : Canonical m e)
    (hM : magnitude M E = magnitude m e) :
    UnpackedFloat.round format s M E = .finite s m e hm := by
  unfold UnpackedFloat.round decreaseExponent
  rw [magnitude_eq, magnitude_eq] at hM
  rcases le_total E e with hle | hle
  · obtain ⟨k, rfl⟩ : ∃ k : Nat, E = e - k := ⟨(e - E).toNat, by omega⟩
    have hMk : M = m * 2 ^ k := by
      rw [zpow_sub₀ two_ne_zero, zpow_natCast] at hM
      field_simp at hM
      rw [mul_comm]
      exact_mod_cast hM
    subst hMk
    rw [totalExponent_mul_two_pow hm, targetExponent_eq hm h]
    have hshift : (e - (k : Int) - e).toNat = 0 := by omega
    dsimp only
    rw [hshift, Nat.shiftLeft_zero, Nat.cast_zero, sub_zero]
    exact roundWithAccuracy_eq s hm h k
  · obtain ⟨k, rfl⟩ : ∃ k : Nat, E = e + k := ⟨(E - e).toNat, by omega⟩
    have hmk : m = M * 2 ^ k := by
      rw [zpow_add₀ two_ne_zero, zpow_natCast] at hM
      have he : (2 : Rat) ^ e ≠ 0 := by positivity
      have : (M : Rat) * 2 ^ k = m := by
        apply mul_right_cancel₀ he
        rw [← hM]
        ring
      exact_mod_cast this.symm
    have hM0 : 0 < M := by
      rcases Nat.eq_zero_or_pos M with h0 | h0
      · rw [h0, zero_mul] at hmk
        omega
      · exact h0
    have htotal : totalExponent M (e + k) = totalExponent m e := by
      rw [hmk, ← totalExponent_mul_two_pow hM0 (e + k) k, add_sub_cancel_right]
    have hshift : (e + (k : Int) - e).toNat = k := by omega
    rw [htotal, targetExponent_eq hm h]
    dsimp only
    rw [hshift, Nat.shiftLeft_eq, ← hmk, add_sub_cancel_right]
    have hexact := roundWithAccuracy_eq s hm h 0
    rwa [pow_zero, mul_one, Nat.cast_zero, sub_zero] at hexact

end CanvasScript.Binary64
