import CanvasScript.Proofs.Binary64.Value
import CanvasScript.Proofs.Rounding

/-!
# Encoding of doubles

* `magnitudeBits_magnitude`: **encoding a representable magnitude gives its bits**.
* `decode_encode`: so what is encoded is decoded as it was.
-/

namespace CanvasScript.Binary64

open Rounding

/-- The binade of a magnitude. -/
theorem log2_magnitude {m : Nat} {e : Int} (hm : 0 < m) : log2 (magnitude m e) = m.log2 + e := by
  have hl : (2 : Rat) ^ m.log2 ≤ m := by exact_mod_cast Nat.log2_self_le hm.ne'
  have hu : (m : Rat) < 2 ^ (m.log2 + 1) := by exact_mod_cast Nat.lt_log2_self
  rw [magnitude_eq]
  apply log2_eq
  · rw [zpow_add₀ two_ne_zero, zpow_natCast]
    exact mul_le_mul_of_nonneg_right hl (by positivity)
  · calc (m : Rat) * 2 ^ e
        < 2 ^ (m.log2 + 1) * 2 ^ e := mul_lt_mul_of_pos_right hu (by positivity)
      _ = 2 ^ ((m.log2 : Int) + e + 1) := by
          rw [← zpow_natCast, ← zpow_add₀ two_ne_zero]
          congr 1
          push_cast
          ring

/-- Behind the mantissas of an exponent the next binade begins. -/
theorem Canonical.magnitude_lt_two_zpow {m : Nat} {e : Int} (h : Canonical m e) :
    magnitude m e < 2 ^ (e + 53) := by
  have hm : (m : Rat) < 2 ^ (53 : Int) := by exact_mod_cast h.mantissa_lt
  calc magnitude m e
      = m * 2 ^ e := magnitude_eq m e
    _ < 2 ^ (53 : Int) * 2 ^ e := mul_lt_mul_of_pos_right hm (by positivity)
    _ = 2 ^ (e + 53) := by rw [← zpow_add₀ two_ne_zero, add_comm]

/-- The exponent that encoding aims at is the canonical one. -/
theorem aim_magnitude {m : Nat} {e : Int} (hm : 0 < m) (h : Canonical m e) :
    max (log2 (magnitude m e) - 52) (-1074) = e := by
  obtain ⟨hu, hle, hge, hfull⟩ := h
  rw [log2_magnitude hm]
  rcases le_or_gt (2 ^ 52) m with hl | hl
  · rw [log2_eq_of_full hl hu]
    omega
  · have : m.log2 < 52 := (Nat.log2_lt hm.ne').mpr hl
    omega

theorem magnitude_div (m : Nat) (e : Int) : magnitude m e / (2 : Rat) ^ e = ((m : Int) : Rat) := by
  rw [magnitude_eq, mul_div_assoc, div_self (by positivity), mul_one, Int.cast_natCast]

/-- **Encoding a representable magnitude gives its bits.** -/
theorem magnitudeBits_magnitude {m : Nat} {e : Int} (h : Canonical m e) :
    magnitudeBits (magnitude m e) = (e + 1074).toNat * 2 ^ 52 + m := by
  rcases Nat.eq_zero_or_pos m with rfl | hm
  · have he : e = -1074 := h.full.resolve_left (by decide)
    subst he
    rw [magnitude_zero]
    rfl
  · have hpos := magnitude_pos hm e
    unfold magnitudeBits
    simp only [if_neg (not_le.mpr hpos), aim_magnitude hm h, magnitude_div, halfEven_intCast,
      Int.toNat_natCast]
    have hpow : Nat.pow 2 52 = 2 ^ 52 := rfl
    obtain ⟨hu, hle, hge, -⟩ := h
    rw [hpow]
    split <;> omega

theorem decode_ofBits {bits : Nat} {negative : Bool} {m : Nat} {e : Int} (hbits : bits < 2 ^ 64)
    (h : decodeBits bits = .finite negative m e) :
    decode (Float.ofBits (UInt64.ofNat bits)) = .finite negative m e := by
  have hc := decodeBits_canonical h
  have hnat : (UInt64.ofNat bits).toBitVec.toNat = bits :=
    UInt64.toNat_ofNat_of_lt' hbits
  have hmodel : Float.ofBits (UInt64.ofNat bits) = ofDecoded (.finite negative m e) := by
    apply eq_of_toModel
    show Float.Model.pack (Float.Model.UnpackedFloat.unpack format _) = .pack _
    rw [unpack_eq, hnat, h]
  rw [hmodel, decode_ofDecoded hc]

/-- **What is encoded is decoded as it was.** -/
theorem decode_encode (negative : Bool) {m : Nat} {e : Int} (h : Canonical m e) :
    decode (encode negative (magnitude m e)) = .finite negative m e := by
  unfold encode
  rw [magnitudeBits_magnitude h]
  exact decode_ofBits (bitsOf_lt h) (decodeBits_bitsOf h)

/-- **A rational that some double equals is converted exactly.** -/
theorem toRat?_ofRat {x : Float} {r : Rat} (h : toRat? x = .ok r) : toRat? (ofRat r) = .ok r := by
  obtain ⟨negative, m, e, -, hc, rfl⟩ := decode_of_toRat? h
  have hnonneg := magnitude_nonneg m e
  unfold ofRat
  cases negative
  · have hr : ¬ signed false (magnitude m e) < 0 := not_lt.mpr hnonneg
    rw [if_neg hr]
    exact toRat?_of_decode (decode_encode _ hc)
  · by_cases hr : signed true (magnitude m e) < 0
    · rw [if_pos hr]
      have hneg : -signed true (magnitude m e) = magnitude m e := neg_neg _
      rw [hneg]
      exact toRat?_of_decode (decode_encode _ hc)
    · have hzero : magnitude m e = 0 := le_antisymm (by simpa [signed] using hr) hnonneg
      rw [if_neg hr, hzero, signed_zero]
      decide +kernel

end CanvasScript.Binary64
