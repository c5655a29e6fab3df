import CanvasScript.Proofs.Binary64.Locate

/-!
# Products of doubles

A product with a factor of at most one does not run out of the finite doubles: its magnitude is
rounded to no more than the one of the other factor, since that is a double.

* `halfEven_div_two_pow`: a mantissa that is shifted is rounded to the nearest integer.
* `kept` is what rounding leaves of a magnitude, and `kept_mono`: **rounding keeps the order**.
* `roundWithAccuracy_le`: **a magnitude is rounded to no more than a double that bounds it**.
* `exists_toRat?_mul`: **so a product with at most one is finite**, and no greater.
* `toRat?_mul`: a product with a part of one is the exact product, rounded.
-/

namespace CanvasScript.Binary64

open Float.Model (UnpackedFloat totalExponent)
open Float.Model.UnpackedFloat
open Rounding

/-! ## Shifting -/

/-- A mantissa, shifted. -/
abbrev shifted (m k : Nat) : ExtendedMantissa := (⟨m, false, false⟩ : ExtendedMantissa) >>> k

theorem mantissa_shifted (m k : Nat) : (shifted m k).mantissa = m / 2 ^ k := by
  have hrepeat (em : ExtendedMantissa) :
      (k.repeat ExtendedMantissa.shiftRightOne em).mantissa = em.mantissa / 2 ^ k := by
    induction k with
    | zero => exact (Nat.div_one _).symm
    | succ k ih =>
      show (k.repeat ExtendedMantissa.shiftRightOne em).mantissa / 2 = _
      rw [ih, Nat.div_div_eq_div_mul, pow_succ]
  exact hrepeat _

/-- What a mantissa tells of a number, together with the digits that were shifted out of it: the
integer below, and on which side of the half the rest lies. -/
def Represents (em : ExtendedMantissa) (x : Rat) : Prop :=
  match em.roundBit, em.stickyBit with
  | false, false => x = em.mantissa
  | false, true => em.mantissa < x ∧ x < em.mantissa + 1 / 2
  | true, false => x = em.mantissa + 1 / 2
  | true, true => em.mantissa + 1 / 2 < x ∧ x < em.mantissa + 1

/-- Shifting halves the number. -/
theorem Represents.shiftRightOne {em : ExtendedMantissa} {x : Rat} (h : Represents em x) :
    Represents em.shiftRightOne (x / 2) := by
  obtain ⟨m, round, sticky⟩ := em
  obtain ⟨q, rfl | rfl⟩ := Nat.even_or_odd' m
  · have hshift : (⟨2 * q, round, sticky⟩ : ExtendedMantissa).shiftRightOne =
        ⟨q, false, round || sticky⟩ := by
      simp [ExtendedMantissa.shiftRightOne]
    rw [hshift]
    cases round <;> cases sticky <;> dsimp only [Represents] at h ⊢ <;> push_cast at h
    · show x / 2 = q
      linarith
    · exact ⟨by linarith, by linarith⟩
    · exact ⟨by linarith, by linarith⟩
    · exact ⟨by linarith, by linarith⟩
  · have hshift : (⟨2 * q + 1, round, sticky⟩ : ExtendedMantissa).shiftRightOne =
        ⟨q, true, round || sticky⟩ := by
      simp [ExtendedMantissa.shiftRightOne]
      omega
    rw [hshift]
    cases round <;> cases sticky <;> dsimp only [Represents] at h ⊢ <;> push_cast at h
    · show x / 2 = q + 1 / 2
      linarith
    · exact ⟨by linarith, by linarith⟩
    · exact ⟨by linarith, by linarith⟩
    · exact ⟨by linarith, by linarith⟩

theorem represents_shifted (m k : Nat) : Represents (shifted m k) (m / 2 ^ k) := by
  show Represents (k.repeat ExtendedMantissa.shiftRightOne ⟨m, false, false⟩) _
  induction k with
  | zero =>
    show (m : Rat) / 2 ^ 0 = m
    rw [pow_zero, div_one]
  | succ k ih =>
    rw [pow_succ, ← div_div]
    exact ih.shiftRightOne

/-- A mantissa is rounded to the nearest integer of the number that it represents. -/
theorem Represents.roundedMantissa_eq {em : ExtendedMantissa} {x : Rat} (h : Represents em x) :
    halfEven x = em.roundedMantissa := by
  obtain ⟨m, round, sticky⟩ := em
  cases round <;> cases sticky
  · obtain rfl : x = m := h
    exact_mod_cast halfEven_intCast m
  · obtain ⟨hl, hu⟩ : (m : Rat) < x ∧ x < m + 1 / 2 := h
    refine halfEven_eq (n := m) ?_ ?_ (.inr ⟨?_, ?_⟩) <;> push_cast <;> linarith
  · obtain rfl : x = m + 1 / 2 := h
    -- half way between two integers, the even one is taken
    show _ = ((m + m % 2 : Nat) : Int)
    rcases Nat.mod_two_eq_zero_or_one m with hm | hm <;> rw [hm]
    · exact halfEven_eq (by push_cast; linarith) (by push_cast; linarith) (.inl (by omega))
    · exact halfEven_eq (by push_cast; linarith) (by push_cast; linarith) (.inl (by omega))
  · obtain ⟨hl, hu⟩ : (m : Rat) + 1 / 2 < x ∧ x < m + 1 := h
    refine halfEven_eq (n := (m + 1 : Nat)) ?_ ?_ (.inr ⟨?_, ?_⟩) <;> push_cast <;> linarith

/-- **What is shifted is rounded to the nearest integer.** -/
theorem halfEven_div_two_pow (m k : Nat) :
    halfEven (m / 2 ^ k) = (shifted m k).roundedMantissa :=
  (represents_shifted m k).roundedMantissa_eq

/-- **Rounding passes no integer.** -/
theorem roundedMantissa_le {m n k : Nat} (h : m ≤ n * 2 ^ k) :
    (shifted m k).roundedMantissa ≤ n := by
  have hquot : (m : Rat) / 2 ^ k ≤ (n : Int) := by
    rw [div_le_iff₀ (by positivity)]
    exact_mod_cast h
  have hle := halfEven_le hquot
  rw [halfEven_div_two_pow] at hle
  exact_mod_cast hle

/-- **Rounding passes no integer**, from below. -/
theorem le_roundedMantissa {m n k : Nat} (h : n * 2 ^ k ≤ m) :
    n ≤ (shifted m k).roundedMantissa := by
  have hquot : ((n : Int) : Rat) ≤ m / 2 ^ k := by
    rw [le_div_iff₀ (by positivity)]
    exact_mod_cast h
  have hle := le_halfEven hquot
  rw [halfEven_div_two_pow] at hle
  exact_mod_cast hle

/-! ## The digits that are kept -/

/-- The exponent of the last digit that the format keeps of a magnitude. -/
def lastExponent (q : Rat) : Int := max (log2 q - 52) (-1074)

/-- The magnitude that is left of one when it is rounded to the digits that the format keeps. -/
def kept (q : Rat) : Rat := toMultiple (2 ^ lastExponent q) q

theorem kept_zero : kept 0 = 0 := by
  have hround : halfEven 0 = 0 := by exact_mod_cast halfEven_intCast 0
  unfold kept toMultiple
  rw [zero_div, hround, Int.cast_zero, zero_mul]

theorem kept_nonneg {q : Rat} (h : 0 ≤ q) : 0 ≤ kept q := by
  have hquot : ((0 : Int) : Rat) ≤ q / 2 ^ lastExponent q := by
    rw [Int.cast_zero]
    positivity
  have hround : (0 : Rat) ≤ halfEven (q / 2 ^ lastExponent q) := by exact_mod_cast le_halfEven hquot
  exact mul_nonneg hround (by positivity)

theorem two_pow_mul_two_zpow (k : Nat) (e : Int) :
    (((2 ^ k : Nat) : Int) : Rat) * 2 ^ e = 2 ^ (e + k) := by
  rw [zpow_add₀ two_ne_zero, zpow_natCast, mul_comm]
  push_cast
  rfl

/-- A magnitude is rounded to no more than the end of its binade. -/
theorem kept_le_two_zpow {q : Rat} (h : 0 < q) : kept q ≤ 2 ^ (lastExponent q + 53) := by
  have hbinade : q ≤ 2 ^ (lastExponent q + 53) := by
    refine (lt_two_zpow_log2 h).le.trans (zpow_le_zpow_right₀ one_le_two ?_)
    unfold lastExponent
    omega
  have hpow := two_pow_mul_two_zpow 53 (lastExponent q)
  have hround : halfEven (q / 2 ^ lastExponent q) ≤ (2 ^ 53 : Nat) := by
    refine halfEven_le ?_
    rw [div_le_iff₀ (by positivity), hpow]
    exact hbinade
  calc kept q
      = halfEven (q / 2 ^ lastExponent q) * 2 ^ lastExponent q := rfl
    _ ≤ ((2 ^ 53 : Nat) : Int) * 2 ^ lastExponent q :=
        mul_le_mul_of_nonneg_right (Int.cast_le.mpr hround) (by positivity)
    _ = 2 ^ (lastExponent q + 53) := hpow

/-- A magnitude with all its digits is rounded to no less than the start of its binade. -/
theorem two_zpow_le_kept {q : Rat} (h : 0 < q) (hlow : -1074 < lastExponent q) :
    2 ^ (lastExponent q + 52) ≤ kept q := by
  have hbinade : 2 ^ (lastExponent q + 52) ≤ q := by
    refine le_trans (zpow_le_zpow_right₀ one_le_two ?_) (two_zpow_log2_le h)
    unfold lastExponent at hlow ⊢
    omega
  have hpow := two_pow_mul_two_zpow 52 (lastExponent q)
  have hround : (2 ^ 52 : Nat) ≤ halfEven (q / 2 ^ lastExponent q) := by
    refine le_halfEven ?_
    rw [le_div_iff₀ (by positivity), hpow]
    exact hbinade
  calc (2 : Rat) ^ (lastExponent q + 52)
      = ((2 ^ 52 : Nat) : Int) * 2 ^ lastExponent q := hpow.symm
    _ ≤ halfEven (q / 2 ^ lastExponent q) * 2 ^ lastExponent q :=
        mul_le_mul_of_nonneg_right (Int.cast_le.mpr hround) (by positivity)

/-- **Rounding keeps the order of magnitudes.** -/
theorem kept_mono {q q' : Rat} (h0 : 0 ≤ q) (h : q ≤ q') : kept q ≤ kept q' := by
  rcases h0.eq_or_lt with rfl | hpos
  · rw [kept_zero]
    exact kept_nonneg h
  have hpos' := hpos.trans_le h
  have hlog : log2 q ≤ log2 q' := by
    have := (two_zpow_log2_le hpos).trans_lt (h.trans_lt (lt_two_zpow_log2 hpos'))
    rw [zpow_lt_zpow_iff_right₀ one_lt_two] at this
    omega
  have hlast : lastExponent q ≤ lastExponent q' := max_le_max (by omega) le_rfl
  rcases hlast.eq_or_lt with heq | hlt
  · have hround : halfEven (q / 2 ^ lastExponent q') ≤ halfEven (q' / 2 ^ lastExponent q') :=
      halfEven_mono (div_le_div_of_nonneg_right h (by positivity))
    have hcast : (halfEven (q / 2 ^ lastExponent q') : Rat) ≤
        halfEven (q' / 2 ^ lastExponent q') := by exact_mod_cast hround
    unfold kept
    rw [heq]
    exact mul_le_mul_of_nonneg_right hcast (by positivity)
  · -- the end of the lower binade is no later than the start of the higher one
    have hlow : -1074 < lastExponent q' := lt_of_le_of_lt (le_max_right _ _) hlt
    exact (kept_le_two_zpow hpos).trans ((zpow_le_zpow_right₀ one_le_two (by omega)).trans
      (two_zpow_le_kept hpos' hlow))

/-! ## Rounding below a bound -/

/-- The exponent that the format aims at is reached by shifting. -/
theorem shiftToTargetExponent_of_le {M : Nat} {E t : Int}
    (ht : format.targetExponent (totalExponent M E) = t) (hE : E ≤ t) :
    shiftToTargetExponent format M E .exact = (shifted M (t - E).toNat, t) := by
  unfold shiftToTargetExponent shiftToExponent
  simp only [ht, Int.toNat_of_nonneg (sub_nonneg.mpr hE), add_sub_cancel]
  rfl

/-- A number whose digits are rounded to a canonical form, up to zeros, is rounded to that form. -/
theorem roundWithAccuracy_of_rounded (negative : Bool) {M m k : Nat} {E e : Int}
    (h : Canonical m e) (ht : format.targetExponent (totalExponent M E) = e - k) (hE : E ≤ e - k)
    (hrounded : (shifted M (e - k - E).toNat).roundedMantissa = m * 2 ^ k) :
    roundWithAccuracy format (signOf negative) M E .exact =
      (Decoded.finite negative m e).unpacked := by
  unfold roundWithAccuracy
  rw [shiftToTargetExponent_of_le ht hE]
  dsimp only
  rw [hrounded]
  rcases Nat.eq_zero_or_pos m with rfl | hm
  · rw [Nat.zero_mul]
    exact dif_pos ((mantissa_shifted 0 _).trans (Nat.zero_div _))
  · rw [shiftToTargetExponent_eq hm h k, unpacked_finite negative hm]
    exact dif_neg hm.ne'

/-- Magnitudes with a common exponent below both are those of their digits. -/
theorem magnitude_le_iff {M m : Nat} {E e : Int} (h : E ≤ e) :
    magnitude M E ≤ magnitude m e ↔ M ≤ m * 2 ^ (e - E).toNat := by
  have hmag := magnitude_mul_two_pow m e (e - E).toNat
  rw [Int.toNat_of_nonneg (sub_nonneg.mpr h), sub_sub_cancel] at hmag
  rw [← hmag, ← not_lt, magnitude_lt_iff_mantissa, not_lt]

/-- A number of at most fifty-three digits, or the next greater one, has a canonical form. -/
theorem exists_canonical {R m₁ : Nat} {t e₁ : Int} (h₁ : Canonical m₁ e₁) (ht : -1074 ≤ t)
    (hle : t ≤ e₁) (hR : R ≤ 2 ^ 53) (hfull : 2 ^ 52 ≤ R ∨ t = -1074)
    (hbound : R ≤ m₁ * 2 ^ (e₁ - t).toNat) :
    ∃ m e k, Canonical m e ∧ R = m * 2 ^ k ∧ t = e - (k : Nat) := by
  have hlast := h₁.exponent_le
  rcases hR.lt_or_eq with hlt | rfl
  · exact ⟨R, t, 0, ⟨hlt, ht, hle.trans hlast, hfull⟩, (Nat.mul_one R).symm, (sub_zero t).symm⟩
  · -- the carry lengthens the mantissa by a digit, and the bound leaves room for it
    have hroom : t ≠ e₁ := by
      rintro rfl
      rw [sub_self, Int.toNat_zero, pow_zero, Nat.mul_one] at hbound
      exact absurd h₁.mantissa_lt (not_lt.mpr hbound)
    refine ⟨2 ^ 52, t + 1, 1, ⟨by decide, by omega, by omega, .inl le_rfl⟩, by decide, ?_⟩
    exact (add_sub_cancel_right t 1).symm

/-- A number that a double bounds has no later binade. -/
theorem log2_add_lt {M m₁ : Nat} {E e₁ : Int} (hM : 0 < M) (h₁ : Canonical m₁ e₁)
    (hbound : magnitude M E ≤ magnitude m₁ e₁) : (M.log2 : Int) + E < e₁ + 53 := by
  refine (zpow_lt_zpow_iff_right₀ (one_lt_two (α := Rat))).mp ?_
  rw [← log2_magnitude hM]
  exact (two_zpow_log2_le (magnitude_pos hM E)).trans_lt
    (hbound.trans_lt h₁.magnitude_lt_two_zpow)

/-- What is kept of a number is its mantissa, shifted and rounded. -/
theorem kept_magnitude {M k : Nat} {E : Int} (h : lastExponent (magnitude M E) = E + k) :
    kept (magnitude M E) = magnitude (shifted M k).roundedMantissa (E + k) := by
  have hquot : magnitude M E / 2 ^ (E + k) = M / 2 ^ k := by
    rw [magnitude_eq, zpow_add₀ two_ne_zero, zpow_natCast]
    field_simp
  unfold kept toMultiple
  rw [h, hquot, halfEven_div_two_pow, magnitude_eq, Int.cast_natCast]

/-- **A magnitude is rounded to the digits that the format keeps**, and so to no more than a double
that bounds it. -/
theorem roundWithAccuracy_le (negative : Bool) {M m₁ : Nat} {E e₁ : Int} (hM : 0 < M)
    (h₁ : Canonical m₁ e₁) (hbound : magnitude M E ≤ magnitude m₁ e₁)
    (hE : E ≤ format.targetExponent (totalExponent M E)) :
    ∃ m e, Canonical m e ∧ magnitude m e = kept (magnitude M E) ∧
      magnitude m e ≤ magnitude m₁ e₁ ∧
      roundWithAccuracy format (signOf negative) M E .exact =
        (Decoded.finite negative m e).unpacked := by
  obtain ⟨t, ht⟩ : ∃ t, format.targetExponent (totalExponent M E) = t := ⟨_, rfl⟩
  have hmax : max ((M.log2 : Int) + 1 + E - 53) (-1074) = t := ht
  have hbinade := log2_add_lt hM h₁ hbound
  have hfirst := h₁.le_exponent
  rw [ht] at hE
  have hte : t ≤ e₁ := by omega
  -- the digits are shifted by `k`, and the bound has as many more below its own
  obtain ⟨k, hk⟩ : ∃ k : Nat, (t - E).toNat = k := ⟨_, rfl⟩
  have hsum : (e₁ - E).toNat = (e₁ - t).toNat + k := by omega
  have hlast : lastExponent (magnitude M E) = E + k := by
    unfold lastExponent
    rw [log2_magnitude hM]
    omega
  have hkept := kept_magnitude hlast
  have hsmall : (shifted M k).roundedMantissa ≤ 2 ^ 53 := by
    refine roundedMantissa_le (Nat.lt_log2_self.le.trans ?_)
    rw [← pow_add]
    exact Nat.pow_le_pow_right (by decide) (by omega)
  have hfull : 2 ^ 52 ≤ (shifted M k).roundedMantissa ∨ t = -1074 := by
    rcases eq_or_ne t (-1074) with hlow | hlow
    · exact .inr hlow
    · refine .inl (le_roundedMantissa (le_trans ?_ (Nat.log2_self_le hM.ne')))
      rw [← pow_add]
      exact Nat.pow_le_pow_right (by decide) (by omega)
  have hle : (shifted M k).roundedMantissa ≤ m₁ * 2 ^ (e₁ - t).toNat := by
    refine roundedMantissa_le ?_
    rw [Nat.mul_assoc, ← pow_add, ← hsum]
    exact (magnitude_le_iff (hE.trans hte)).mp hbound
  obtain ⟨m, e, j, hc, hR, rfl⟩ := exists_canonical h₁ (by omega) hte hsmall hfull hle
  have hmag : magnitude m e = magnitude (shifted M k).roundedMantissa (e - j) := by
    rw [hR, magnitude_mul_two_pow]
  refine ⟨m, e, hc, ?_, ?_, roundWithAccuracy_of_rounded negative hc ht hE (by rw [hk, hR])⟩
  · rw [hmag, hkept]
    congr 1
    omega
  · rw [hmag]
    exact (magnitude_le_iff hte).mpr hle

/-! ## Products -/

theorem toModel_mul (x y : Float) :
    (x * y).toModel = .pack (UnpackedFloat.mul format (decode x).unpacked (decode y).unpacked) := by
  rw [← unpack_toModel, ← unpack_toModel]
  rfl

theorem mul_signOf (n₁ n₂ : Bool) : signOf n₁ * signOf n₂ = signOf (n₁ != n₂) := by
  cases n₁ <;> cases n₂ <;> rfl

theorem magnitude_mul (m₁ m₂ : Nat) (e₁ e₂ : Int) :
    magnitude (m₁ * m₂) (e₁ + e₂) = magnitude m₁ e₁ * magnitude m₂ e₂ := by
  rw [magnitude_eq, magnitude_eq, magnitude_eq, zpow_add₀ two_ne_zero]
  push_cast
  ring

/-- The exact product of two doubles has no fewer digits than the format keeps. -/
theorem add_le_targetExponent {m₁ m₂ : Nat} {e₁ e₂ : Int} (hm₁ : 0 < m₁) (hm₂ : 0 < m₂)
    (h₁ : Canonical m₁ e₁) (h₂ : Canonical m₂ e₂) :
    e₁ + e₂ ≤ format.targetExponent (totalExponent (m₁ * m₂) (e₁ + e₂)) := by
  show e₁ + e₂ ≤ max (((m₁ * m₂).log2 : Int) + 1 + (e₁ + e₂) - 53) (-1074)
  have hlog (h : 2 ^ 52 ≤ m₁ * m₂) : 52 ≤ (m₁ * m₂).log2 :=
    (Nat.le_log2 (Nat.mul_pos hm₁ hm₂).ne').mpr h
  rcases h₁.full with hfull | he₁
  · have := hlog (hfull.trans (Nat.le_mul_of_pos_right m₁ hm₂))
    omega
  · rcases h₂.full with hfull | he₂
    · have := hlog (hfull.trans (Nat.le_mul_of_pos_left m₂ hm₁))
      omega
    · omega

/-- A product with zero is a zero. -/
theorem mul_unpacked_zero (n₁ n₂ : Bool) {m₁ m₂ : Nat} (e₁ e₂ : Int) (h : m₁ = 0 ∨ m₂ = 0) :
    UnpackedFloat.mul format (Decoded.finite n₁ m₁ e₁).unpacked
      (Decoded.finite n₂ m₂ e₂).unpacked = (Decoded.finite (n₁ != n₂) 0 (-1074)).unpacked := by
  have hzero := congrArg UnpackedFloat.zero (mul_signOf n₁ n₂)
  rcases Nat.eq_zero_or_pos m₁ with rfl | hm₁ <;> rcases Nat.eq_zero_or_pos m₂ with rfl | hm₂
  · exact hzero
  · rw [unpacked_finite n₂ hm₂]
    exact hzero
  · rw [unpacked_finite n₁ hm₁]
    exact hzero
  · exact absurd h (not_or.mpr ⟨hm₁.ne', hm₂.ne'⟩)

/-- **A product with at most one is computed as a canonical form**: the exact product, rounded. -/
theorem exists_mul_unpacked (n₁ n₂ : Bool) {m₁ m₂ : Nat} {e₁ e₂ : Int} (h₁ : Canonical m₁ e₁)
    (h₂ : Canonical m₂ e₂) (hle : magnitude m₂ e₂ ≤ 1) :
    ∃ m e, Canonical m e ∧ magnitude m e = kept (magnitude m₁ e₁ * magnitude m₂ e₂) ∧
      magnitude m e ≤ magnitude m₁ e₁ ∧
      UnpackedFloat.mul format (Decoded.finite n₁ m₁ e₁).unpacked
        (Decoded.finite n₂ m₂ e₂).unpacked = (Decoded.finite (n₁ != n₂) m e).unpacked := by
  have hnonneg := magnitude_nonneg m₁ e₁
  by_cases hzero : m₁ = 0 ∨ m₂ = 0
  · have hproduct : magnitude m₁ e₁ * magnitude m₂ e₂ = 0 := by
      rcases hzero with rfl | rfl <;> simp
    refine ⟨0, -1074, canonical_zero, ?_, by rwa [magnitude_zero],
      mul_unpacked_zero n₁ n₂ e₁ e₂ hzero⟩
    rw [hproduct, kept_zero, magnitude_zero]
  · obtain ⟨hm₁, hm₂⟩ := not_or.mp hzero
    have hm₁ := Nat.pos_of_ne_zero hm₁
    have hm₂ := Nat.pos_of_ne_zero hm₂
    have hbound : magnitude (m₁ * m₂) (e₁ + e₂) ≤ magnitude m₁ e₁ := by
      rw [magnitude_mul]
      exact mul_le_of_le_one_right hnonneg hle
    obtain ⟨m, e, hc, hkept, hmag, hround⟩ := roundWithAccuracy_le (n₁ != n₂)
      (Nat.mul_pos hm₁ hm₂) h₁ hbound (add_le_targetExponent hm₁ hm₂ h₁ h₂)
    rw [magnitude_mul] at hkept
    refine ⟨m, e, hc, hkept, hmag, ?_⟩
    rw [unpacked_finite n₁ hm₁, unpacked_finite n₂ hm₂, ← hround, ← mul_signOf]
    rfl

/-- So it is decoded as that. -/
theorem exists_decode_mul {x y : Float} {n₁ n₂ : Bool} {m₁ m₂ : Nat} {e₁ e₂ : Int}
    (hx : decode x = .finite n₁ m₁ e₁) (hy : decode y = .finite n₂ m₂ e₂)
    (hle : magnitude m₂ e₂ ≤ 1) :
    ∃ m e, decode (x * y) = .finite (n₁ != n₂) m e ∧
      magnitude m e = kept (magnitude m₁ e₁ * magnitude m₂ e₂) ∧
      magnitude m e ≤ magnitude m₁ e₁ := by
  obtain ⟨m, e, hc, hkept, hmag, hmul⟩ :=
    exists_mul_unpacked n₁ n₂ (decode_canonical hx) (decode_canonical hy) hle
  have hmodel : x * y = ofDecoded (.finite (n₁ != n₂) m e) := by
    apply eq_of_toModel
    rw [toModel_mul, hx, hy, hmul]
    rfl
  exact ⟨m, e, by rw [hmodel, decode_ofDecoded hc], hkept, hmag⟩

/-- **A product with at most one is finite**, and no greater. -/
theorem exists_toRat?_mul {x y : Float} {a b : Rat} (hx : toRat? x = .ok a)
    (hy : toRat? y = .ok b) (hb : |b| ≤ 1) : ∃ r, toRat? (x * y) = .ok r ∧ |r| ≤ |a| := by
  obtain ⟨n₁, m₁, e₁, hdx, -, rfl⟩ := decode_of_toRat? hx
  obtain ⟨n₂, m₂, e₂, hdy, -, rfl⟩ := decode_of_toRat? hy
  rw [abs_signed] at hb
  obtain ⟨m, e, hmul, -, hmag⟩ := exists_decode_mul hdx hdy hb
  refine ⟨_, toRat?_of_decode hmul, ?_⟩
  rwa [abs_signed, abs_signed]

/-- A magnitude with a sign is not negative without one, or when it is zero. -/
theorem eq_zero_of_signed {negative : Bool} {r : Rat} (hr : 0 ≤ r) (h : 0 ≤ signed negative r) :
    signed negative r = r ∧ (negative = true → r = 0) := by
  cases negative with
  | false => exact ⟨rfl, fun h => (by cases h)⟩
  | true =>
    obtain rfl : r = 0 := le_antisymm (neg_nonneg.mp h) hr
    exact ⟨neg_zero, fun _ => rfl⟩

/-- **A product with a part of one is the exact product, rounded.** -/
theorem toRat?_mul {x y : Float} {a b : Rat} (hx : toRat? x = .ok a) (hy : toRat? y = .ok b)
    (ha : 0 ≤ a) (hb : 0 ≤ b) (hle : b ≤ 1) : toRat? (x * y) = .ok (kept (a * b)) := by
  obtain ⟨n₁, m₁, e₁, hdx, -, rfl⟩ := decode_of_toRat? hx
  obtain ⟨n₂, m₂, e₂, hdy, -, rfl⟩ := decode_of_toRat? hy
  obtain ⟨ha', hzero₁⟩ := eq_zero_of_signed (magnitude_nonneg m₁ e₁) ha
  obtain ⟨hb', hzero₂⟩ := eq_zero_of_signed (magnitude_nonneg m₂ e₂) hb
  rw [hb'] at hle
  obtain ⟨m, e, hmul, hkept, -⟩ := exists_decode_mul hdx hdy hle
  rw [ha', hb', ← hkept]
  refine (toRat?_of_decode hmul).trans (congrArg Except.ok ?_)
  -- a negative sign stands before zeros only
  have hzero (h : magnitude m₁ e₁ * magnitude m₂ e₂ = 0) :
      signed (n₁ != n₂) (magnitude m e) = magnitude m e := by
    rw [hkept, h, kept_zero, signed_zero]
  cases n₁ with
  | true => exact hzero (by rw [hzero₁ rfl, zero_mul])
  | false =>
    cases n₂ with
    | true => exact hzero (by rw [hzero₂ rfl, mul_zero])
    | false => rfl

end CanvasScript.Binary64
