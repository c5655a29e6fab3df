import CanvasScript.Proofs.Binary64.Value

/-!
# Exact operations on doubles

Where the exact result of an operation on doubles is itself a double, that is what it gives.

* `sub_eq`: **a difference that is representable is exact**.
* `decode_neg`, `decode_mul_one`: negation changes the sign only, and a product with one nothing.

Out of scope: operations whose exact result is no double, but for the products of `Product`.
-/

namespace CanvasScript.Binary64

open Float.Model (UnpackedFloat)
open Float.Model.UnpackedFloat

/-- The canonical form of a magnitude is the only one. -/
theorem Canonical.unique {m₁ m₂ : Nat} {e₁ e₂ : Int} (h₁ : Canonical m₁ e₁)
    (h₂ : Canonical m₂ e₂) (h : magnitude m₁ e₁ = magnitude m₂ e₂) : m₁ = m₂ ∧ e₁ = e₂ := by
  have hcompare := compare_then_eq h₁ h₂
  rw [h, compare_eq_iff_eq.mpr rfl, Ordering.then_eq_eq] at hcompare
  exact ⟨compare_eq_iff_eq.mp hcompare.2, compare_eq_iff_eq.mp hcompare.1⟩

theorem finite_eq_of_magnitude {s : Sign} {m₁ m₂ : Nat} {e₁ e₂ : Int} {hm₁ : 0 < m₁}
    {hm₂ : 0 < m₂} (h₁ : Canonical m₁ e₁) (h₂ : Canonical m₂ e₂)
    (h : magnitude m₁ e₁ = magnitude m₂ e₂) : finite s m₁ e₁ hm₁ = finite s m₂ e₂ hm₂ := by
  obtain ⟨hm, he⟩ := h₁.unique h₂ h
  exact finite_congr s hm he

theorem signed_neg (negative : Bool) (r : Rat) : signed (!negative) r = -signed negative r := by
  cases negative
  · rfl
  · exact (neg_neg r).symm

theorem signed_inj {n₁ n₂ : Bool} {r₁ r₂ : Rat} (h₁ : 0 < r₁) (h₂ : 0 < r₂)
    (h : signed n₁ r₁ = signed n₂ r₂) : n₁ = n₂ ∧ r₁ = r₂ := by
  cases n₁ <;> cases n₂ <;> simp only [signed, Bool.false_eq_true, if_true, if_false] at h
  · exact ⟨rfl, h⟩
  · linarith
  · linarith
  · exact ⟨rfl, neg_inj.mp h⟩

theorem neg_signOf (negative : Bool) : -signOf negative = signOf (!negative) := by
  cases negative <;> rfl

theorem apply_signOf (negative : Bool) (n : Int) :
    (((signOf negative).apply n : Int) : Rat) = signed negative n := by
  cases negative
  · rfl
  · exact Int.cast_neg n

/-- Lowering the exponent keeps the magnitude. -/
theorem decreaseExponent_eq (m : Nat) {e E : Int} (h : E ≤ e) :
    ∃ M, decreaseExponent m e E = (M, E) ∧ magnitude M E = magnitude m e := by
  refine ⟨m * 2 ^ (e - E).toNat, ?_, ?_⟩
  · show (m <<< (e - E).toNat, e - ((e - E).toNat : Int)) = _
    rw [Nat.shiftLeft_eq, Int.toNat_of_nonneg (by omega), sub_sub_cancel]
  · have := magnitude_mul_two_pow m e (e - E).toNat
    rwa [Int.toNat_of_nonneg (by omega), sub_sub_cancel] at this

/-- **Rounding a signed number that is representable changes its form only.** -/
theorem normalize_eq {m : Nat} {e : Int} (hm : 0 < m) (h : Canonical m e) {negative : Bool}
    {M E : Int} (hM : (M : Rat) * 2 ^ E = signed negative (magnitude m e)) (zeroSign : Sign) :
    UnpackedFloat.normalize format M E zeroSign = finite (signOf negative) m e hm := by
  have hpos := magnitude_pos hm e
  have hE : (0 : Rat) < 2 ^ E := by positivity
  unfold UnpackedFloat.normalize
  cases negative
  · have hM0 : 0 < M := by
      have : (0 : Rat) < M := (mul_pos_iff_of_pos_right hE).mp (hM ▸ hpos)
      exact_mod_cast this
    lift M to Nat using hM0.le
    rw [compare_gt_iff_gt.mpr hM0]
    exact round_eq _ hm h (by rw [magnitude_eq]; exact_mod_cast hM)
  · have hM0 : M < 0 := by
      have : (0 : Rat) < -M := by
        refine (mul_pos_iff_of_pos_right hE).mp ?_
        rw [neg_mul, hM]
        exact (neg_neg (magnitude m e)).symm ▸ hpos
      have : (M : Rat) < 0 := by linarith
      exact_mod_cast this
    rw [compare_lt_iff_lt.mpr hM0]
    refine round_eq _ hm h ?_
    have hcast : (((-M).toNat : Nat) : Rat) = -M := by
      have : (((-M).toNat : Nat) : Int) = -M := Int.toNat_of_nonneg (by omega)
      exact_mod_cast congrArg (Int.cast : Int → Rat) this
    rw [magnitude_eq, hcast, neg_mul, hM]
    exact neg_neg _

/-! ## Differences -/

theorem toModel_sub (x y : Float) :
    (x - y).toModel = .pack (UnpackedFloat.sub format (decode x).unpacked (decode y).unpacked) := by
  rw [← unpack_toModel, ← unpack_toModel]
  rfl

theorem sub_unpacked {n₁ n₂ negative : Bool} {m₁ m₂ m : Nat} {e₁ e₂ e : Int}
    (h₁ : Canonical m₁ e₁) (h₂ : Canonical m₂ e₂) (hm : 0 < m) (h : Canonical m e)
    (hdiff : signed n₁ (magnitude m₁ e₁) - signed n₂ (magnitude m₂ e₂) =
      signed negative (magnitude m e)) :
    UnpackedFloat.sub format (Decoded.finite n₁ m₁ e₁).unpacked
      (Decoded.finite n₂ m₂ e₂).unpacked = finite (signOf negative) m e hm := by
  have hpos := magnitude_pos hm e
  rcases Nat.eq_zero_or_pos m₁ with rfl | hm₁ <;> rcases Nat.eq_zero_or_pos m₂ with rfl | hm₂
  · rw [magnitude_zero, magnitude_zero, signed_zero, signed_zero, sub_zero,
      ← signed_zero negative] at hdiff
    cases negative
    · exact absurd hdiff hpos.ne
    · exact absurd (neg_inj.mp hdiff) hpos.ne
  · rw [magnitude_zero, signed_zero, zero_sub, ← signed_neg] at hdiff
    obtain ⟨hn, hmag⟩ := signed_inj (magnitude_pos hm₂ e₂) hpos hdiff
    rw [unpacked_zero, unpacked_finite n₂ hm₂]
    show finite (-signOf n₂) m₂ e₂ hm₂ = _
    rw [neg_signOf, hn]
    exact finite_eq_of_magnitude h₂ h hmag
  · rw [magnitude_zero, signed_zero, sub_zero] at hdiff
    obtain ⟨rfl, hmag⟩ := signed_inj (magnitude_pos hm₁ e₁) hpos hdiff
    rw [unpacked_finite n₁ hm₁, unpacked_zero]
    exact finite_eq_of_magnitude h₁ h hmag
  · obtain ⟨M₁, hM₁, hmag₁⟩ := decreaseExponent_eq m₁ (min_le_left e₁ e₂)
    obtain ⟨M₂, hM₂, hmag₂⟩ := decreaseExponent_eq m₂ (min_le_right e₁ e₂)
    rw [unpacked_finite n₁ hm₁, unpacked_finite n₂ hm₂]
    unfold UnpackedFloat.sub
    dsimp only
    rw [hM₁, hM₂]
    refine normalize_eq hm h ?_ _
    rw [← hdiff, ← hmag₁, ← hmag₂, magnitude_eq, magnitude_eq]
    push_cast [apply_signOf]
    cases n₁ <;> cases n₂ <;> simp only [signed, Bool.false_eq_true, if_true, if_false] <;> ring

theorem sub_unpacked_self (n : Bool) (m : Nat) (e : Int) :
    UnpackedFloat.sub format (Decoded.finite n m e).unpacked (Decoded.finite n m e).unpacked =
      .zero .positive := by
  rcases Nat.eq_zero_or_pos m with rfl | hm
  · cases n <;> rfl
  · obtain ⟨M, hM, -⟩ := decreaseExponent_eq m (le_refl e)
    rw [unpacked_finite n hm]
    unfold UnpackedFloat.sub
    dsimp only
    rw [min_self, hM]
    dsimp only
    rw [sub_self]
    rfl

/-- **A difference that is representable is exact.** -/
theorem sub_eq {x y : Float} {a b : Rat} (hx : toRat? x = .ok a) (hy : toRat? y = .ok b)
    {negative : Bool} {m : Nat} {e : Int} (hm : 0 < m) (h : Canonical m e)
    (hdiff : a - b = signed negative (magnitude m e)) :
    x - y = ofDecoded (.finite negative m e) := by
  obtain ⟨n₁, m₁, e₁, hdx, hcx, rfl⟩ := decode_of_toRat? hx
  obtain ⟨n₂, m₂, e₂, hdy, hcy, rfl⟩ := decode_of_toRat? hy
  apply eq_of_toModel
  rw [toModel_sub, hdx, hdy, sub_unpacked hcx hcy hm h hdiff, ← unpacked_finite]
  rfl

/-- A finite double less itself is the positive zero. -/
theorem sub_self_eq {x : Float} {a : Rat} (hx : toRat? x = .ok a) :
    x - x = ofDecoded (.finite false 0 (-1074)) := by
  obtain ⟨n, m, e, hdx, -, -⟩ := decode_of_toRat? hx
  apply eq_of_toModel
  rw [toModel_sub, hdx, sub_unpacked_self]
  rfl

/-! ## Negation and products with one -/

theorem neg_unpacked (negative : Bool) (m : Nat) (e : Int) :
    (Decoded.finite negative m e).unpacked.neg = (Decoded.finite (!negative) m e).unpacked := by
  rcases Nat.eq_zero_or_pos m with rfl | hm
  · exact congrArg UnpackedFloat.zero (neg_signOf negative)
  · rw [unpacked_finite negative hm, unpacked_finite (!negative) hm, ← neg_signOf]
    rfl

/-- **Negation changes the sign only.** -/
theorem decode_neg (x : Float) {negative : Bool} {m : Nat} {e : Int}
    (hx : decode x = .finite negative m e) : decode (-x) = .finite (!negative) m e := by
  have hmodel : -x = ofDecoded (.finite (!negative) m e) := by
    apply eq_of_toModel
    show Float.Model.pack x.toModel.unpack.neg = .pack _
    rw [unpack_toModel, hx, neg_unpacked]
  rw [hmodel, decode_ofDecoded (decode_canonical hx)]

theorem toRat?_neg {x : Float} {a : Rat} (hx : toRat? x = .ok a) : toRat? (-x) = .ok (-a) := by
  obtain ⟨n, m, e, hdx, -, rfl⟩ := decode_of_toRat? hx
  rw [toRat?_of_decode (decode_neg x hdx), signed_neg]

/-- What the double one stands for. -/
def one : Decoded := .finite false (2 ^ 52) (-52)

theorem mul_unpacked_one {negative : Bool} {m : Nat} {e : Int} (h : Canonical m e) :
    UnpackedFloat.mul format (Decoded.finite negative m e).unpacked one.unpacked =
      (Decoded.finite negative m e).unpacked := by
  have hsign : signOf negative * .positive = signOf negative := by cases negative <;> rfl
  have hone : one.unpacked = finite .positive (2 ^ 52) (-52) (by decide) := rfl
  rcases Nat.eq_zero_or_pos m with rfl | hm
  · rw [unpacked_zero, hone]
    exact congrArg UnpackedFloat.zero hsign
  · rw [unpacked_finite negative hm, hone]
    have hround := roundWithAccuracy_eq (signOf negative) hm h 52
    unfold UnpackedFloat.mul
    dsimp only
    rw [hsign]
    exact hround

/-- **A finite double times one is the same number.** -/
theorem decode_mul_one {x y : Float} {negative : Bool} {m : Nat} {e : Int}
    (hx : decode x = .finite negative m e) (hy : decode y = one) :
    decode (x * y) = .finite negative m e := by
  have hmodel : x * y = ofDecoded (.finite negative m e) := by
    apply eq_of_toModel
    show Float.Model.pack (UnpackedFloat.mul format x.toModel.unpack y.toModel.unpack) = .pack _
    rw [unpack_toModel, unpack_toModel, hx, hy, mul_unpacked_one (decode_canonical hx)]
  rw [hmodel, decode_ofDecoded (decode_canonical hx)]

end CanvasScript.Binary64
