import CanvasScript.Proofs.Binary64.Unpacked
import CanvasScript.Proofs.Scalar.Laws

/-!
# Doubles as numbers

What a double stands for decides what its operations give.

* `toRat?_of_decode`: the rational of a finite double, and `isFinite_iff`: there is one.
* The order of doubles is the one of what they stand for (`lt_iff`, `le_iff`), and a double without
  a number compares with nothing, so doubles are `OrderedScalar`s.
-/

namespace CanvasScript.Binary64

open Float.Model (UnpackedFloat)
open Float.Model.UnpackedFloat

theorem unpack_toModel (x : Float) : x.toModel.unpack = (decode x).unpacked :=
  unpack_eq x.toModel.toBits.toBitVec

theorem decode_canonical {x : Float} {negative : Bool} {m : Nat} {e : Int}
    (h : decode x = .finite negative m e) : Canonical m e :=
  decodeBits_canonical h

theorem eq_of_toModel {x y : Float} (h : x.toModel = y.toModel) : x = y := by
  cases x
  cases y
  exact congrArg Float.ofModel h

/-- **What a finite double stands for determines it**, with the sign of a zero. -/
theorem eq_of_decode {x y : Float} {negative : Bool} {m : Nat} {e : Int}
    (hx : decode x = .finite negative m e) (hy : decode y = .finite negative m e) : x = y := by
  have hbits : x.toModel.toBits = y.toModel.toBits := by
    apply UInt64.toNat_inj.mp
    exact (eq_bitsOf (UInt64.toNat_lt _) hx).trans (eq_bitsOf (UInt64.toNat_lt _) hy).symm
  apply eq_of_toModel
  rcases hmx : x.toModel with ⟨bx, hvx⟩
  rcases hmy : y.toModel with ⟨bY, hvy⟩
  rw [hmx, hmy] at hbits
  subst hbits
  rfl

/-- The double that stands for something. -/
def ofDecoded (d : Decoded) : Float := .ofModel (.pack d.unpacked)

/-- **A double that is packed in canonical form stands for what was packed.** -/
theorem decode_ofDecoded {negative : Bool} {m : Nat} {e : Int} (h : Canonical m e) :
    decode (ofDecoded (.finite negative m e)) = .finite negative m e := by
  rcases Nat.eq_zero_or_pos m with rfl | hm
  · have he : e = -1074 := h.full.resolve_left (by decide)
    subst he
    cases negative <;> decide
  · show decodeBits (pack format (Decoded.finite negative m e).unpacked).toNat = _
    rw [unpacked_finite negative hm, pack_toNat hm h, decodeBits_bitsOf h]

/-- The rational of a sign and a magnitude. -/
def signed (negative : Bool) (r : Rat) : Rat := if negative then -r else r

theorem toRat?_of_decode {x : Float} {negative : Bool} {m : Nat} {e : Int}
    (h : decode x = .finite negative m e) : toRat? x = .ok (signed negative (magnitude m e)) := by
  unfold toRat?
  rw [h]
  rfl

theorem decode_of_toRat? {x : Float} {r : Rat} (h : toRat? x = .ok r) :
    ∃ negative m e, decode x = .finite negative m e ∧ Canonical m e ∧
      r = signed negative (magnitude m e) := by
  unfold toRat? at h
  split at h
  · rename_i negative m e hx
    exact ⟨negative, m, e, hx, decode_canonical hx, (Except.ok.inj h).symm⟩
  · cases h
  · cases h

/-- A double is finite when it equals a rational. -/
theorem isFinite_iff {x : Float} : x.isFinite = true ↔ ∃ r, toRat? x = .ok r := by
  have hmodel : x.isFinite = (decode x).unpacked.isFinite :=
    congrArg UnpackedFloat.isFinite (unpack_toModel x)
  rw [hmodel]
  unfold toRat?
  cases decode x with
  | finite negative m e =>
    refine ⟨fun _ => ⟨_, rfl⟩, fun _ => ?_⟩
    rcases Nat.eq_zero_or_pos m with rfl | hm
    · rfl
    · rw [unpacked_finite negative hm]
      rfl
  | infinite negative => exact ⟨fun h => (by cases h), fun ⟨_, h⟩ => (by cases h)⟩
  | undefined => exact ⟨fun h => (by cases h), fun ⟨_, h⟩ => (by cases h)⟩

/-! ## Order -/

theorem lt_iff_compare (x y : Float) :
    x < y ↔ (decode x).unpacked.compare (decode y).unpacked = some .lt := by
  rw [← unpack_toModel, ← unpack_toModel]
  show decide (x.toModel < y.toModel) = true ↔ _
  rw [decide_eq_true_iff]
  exact beq_iff_eq

theorem le_iff_compare (x y : Float) :
    x ≤ y ↔ ((decode x).unpacked.compare (decode y).unpacked).any (·.isLE) = true := by
  rw [← unpack_toModel, ← unpack_toModel]
  show decide (x.toModel ≤ y.toModel) = true ↔ _
  rw [decide_eq_true_iff]
  exact Iff.rfl

theorem unpacked_zero (negative : Bool) (e : Int) :
    (Decoded.finite negative 0 e).unpacked = .zero (signOf negative) := rfl

@[simp] theorem magnitude_zero (e : Int) : magnitude 0 e = 0 := by
  rw [magnitude_eq, Nat.cast_zero, zero_mul]

@[simp] theorem signed_zero (negative : Bool) : signed negative 0 = 0 := by
  cases negative
  · rfl
  · exact neg_zero

theorem compare_neg_neg (a b : Rat) : compare (-a) (-b) = (compare a b).swap := by
  rcases lt_trichotomy a b with h | h | h
  · rw [compare_lt_iff_lt.mpr h, compare_gt_iff_gt.mpr (neg_lt_neg h)]
    rfl
  · rw [h, compare_eq_iff_eq.mpr rfl, compare_eq_iff_eq.mpr rfl]
    rfl
  · rw [compare_gt_iff_gt.mpr h, compare_lt_iff_lt.mpr (neg_lt_neg h)]
    rfl

/-- **Finite doubles compare like the rationals that they equal.** -/
theorem compare_unpacked {n₁ n₂ : Bool} {m₁ m₂ : Nat} {e₁ e₂ : Int} (h₁ : Canonical m₁ e₁)
    (h₂ : Canonical m₂ e₂) :
    (Decoded.finite n₁ m₁ e₁).unpacked.compare (Decoded.finite n₂ m₂ e₂).unpacked =
      some (compare (signed n₁ (magnitude m₁ e₁)) (signed n₂ (magnitude m₂ e₂))) := by
  rcases Nat.eq_zero_or_pos m₁ with rfl | hm₁ <;> rcases Nat.eq_zero_or_pos m₂ with rfl | hm₂
  · rw [unpacked_zero, unpacked_zero, magnitude_zero, magnitude_zero, signed_zero, signed_zero,
      compare_eq_iff_eq.mpr rfl]
    cases n₁ <;> cases n₂ <;> rfl
  · have hpos := magnitude_pos hm₂ e₂
    rw [unpacked_zero, unpacked_finite n₂ hm₂, magnitude_zero, signed_zero]
    cases n₂
    · rw [compare_lt_iff_lt.mpr (show 0 < signed false (magnitude m₂ e₂) from hpos)]
      cases n₁ <;> rfl
    · rw [compare_gt_iff_gt.mpr (show signed true (magnitude m₂ e₂) < 0 from neg_neg_of_pos hpos)]
      cases n₁ <;> rfl
  · have hpos := magnitude_pos hm₁ e₁
    rw [unpacked_zero, unpacked_finite n₁ hm₁, magnitude_zero, signed_zero]
    cases n₁
    · rw [compare_gt_iff_gt.mpr (show 0 < signed false (magnitude m₁ e₁) from hpos)]
      cases n₂ <;> rfl
    · rw [compare_lt_iff_lt.mpr (show signed true (magnitude m₁ e₁) < 0 from neg_neg_of_pos hpos)]
      cases n₂ <;> rfl
  · have hpos₁ := magnitude_pos hm₁ e₁
    have hpos₂ := magnitude_pos hm₂ e₂
    rw [unpacked_finite n₁ hm₁, unpacked_finite n₂ hm₂]
    cases n₁ <;> cases n₂
    · exact congrArg some (compare_then_eq h₁ h₂)
    · have hlt : signed true (magnitude m₂ e₂) < signed false (magnitude m₁ e₁) :=
        (neg_neg_of_pos hpos₂).trans hpos₁
      rw [compare_gt_iff_gt.mpr hlt]
      rfl
    · have hlt : signed true (magnitude m₁ e₁) < signed false (magnitude m₂ e₂) :=
        (neg_neg_of_pos hpos₁).trans hpos₂
      rw [compare_lt_iff_lt.mpr hlt]
      rfl
    · show some ((compare e₁ e₂).then (compare m₁ m₂)).swap = _
      rw [compare_then_eq h₁ h₂, ← compare_neg_neg]
      rfl

theorem compare_decode {x y : Float} {a b : Rat} (hx : toRat? x = .ok a) (hy : toRat? y = .ok b) :
    (decode x).unpacked.compare (decode y).unpacked = some (compare a b) := by
  obtain ⟨n₁, m₁, e₁, hdx, hcx, rfl⟩ := decode_of_toRat? hx
  obtain ⟨n₂, m₂, e₂, hdy, hcy, rfl⟩ := decode_of_toRat? hy
  rw [hdx, hdy, compare_unpacked hcx hcy]

/-- **The order of finite doubles is the one of the rationals.** -/
theorem lt_iff {x y : Float} {a b : Rat} (hx : toRat? x = .ok a) (hy : toRat? y = .ok b) :
    x < y ↔ a < b := by
  rw [lt_iff_compare, compare_decode hx hy, Option.some_inj]
  exact compare_lt_iff_lt

/-- **The non-strict order of finite doubles is the one of the rationals.** -/
theorem le_iff {x y : Float} {a b : Rat} (hx : toRat? x = .ok a) (hy : toRat? y = .ok b) :
    x ≤ y ↔ a ≤ b := by
  rw [le_iff_compare, compare_decode hx hy, Option.any_some, Ordering.isLE_iff_ne_gt]
  exact compare_le_iff_le

/-! ## Doubles without a number, and infinite ones -/

theorem compare_sign_swap (s t : Sign) : compare t s = (compare s t).swap := by
  cases s <;> cases t <;> rfl

/-- Comparing the other way round gives the swapped answer. -/
theorem compare_swap (u v : UnpackedFloat) : v.compare u = (u.compare v).map Ordering.swap := by
  cases u with
  | infinity s =>
    cases v with
    | infinity t => exact congrArg some (compare_sign_swap s t)
    | notANumber => cases s <;> rfl
    | zero t => cases s <;> rfl
    | finite t m e hm => cases s <;> cases t <;> rfl
  | notANumber =>
    cases v with
    | infinity t => cases t <;> rfl
    | notANumber => rfl
    | zero t => rfl
    | finite t m e hm => cases t <;> rfl
  | zero s =>
    cases v with
    | infinity t => cases t <;> rfl
    | notANumber => rfl
    | zero t => rfl
    | finite t m e hm => cases t <;> rfl
  | finite s m e hm =>
    cases v with
    | infinity t => cases s <;> cases t <;> rfl
    | notANumber => cases s <;> rfl
    | zero t => cases s <;> rfl
    | finite t m' e' hm' =>
      have hswap : (compare e' e).then (compare m' m) =
          ((compare e e').then (compare m m')).swap := by
        rw [Ordering.swap_then, ← Std.OrientedCmp.eq_swap, ← Std.OrientedCmp.eq_swap]
      cases s <;> cases t
      · exact congrArg (fun o => some (Ordering.swap o)) hswap
      · rfl
      · rfl
      · exact congrArg some hswap

/-- An infinite double lies outside the finite ones on the side of its sign. -/
theorem compare_infinite (n : Bool) (m : Nat) (e : Int) (negative : Bool) :
    (Decoded.finite n m e).unpacked.compare (Decoded.infinite negative).unpacked =
      some (if negative then .gt else .lt) := by
  rcases Nat.eq_zero_or_pos m with rfl | hm
  · cases n <;> cases negative <;> rfl
  · rw [unpacked_finite n hm]
    cases n <;> cases negative <;> rfl

theorem compare_undefined (d : Decoded) : d.unpacked.compare Decoded.undefined.unpacked = none := by
  cases d with
  | finite n m e =>
    rcases Nat.eq_zero_or_pos m with rfl | hm
    · cases n <;> rfl
    · rw [unpacked_finite n hm]
      cases n <;> rfl
  | infinite negative => cases negative <;> rfl
  | undefined => rfl

/-- Only what stands for no number does not compare. -/
theorem notANumber_of_compare {u v : UnpackedFloat} (h : u.compare v = none) :
    u = .notANumber ∨ v = .notANumber := by
  cases u with
  | notANumber => exact .inl rfl
  | infinity s =>
    cases v with
    | notANumber => exact .inr rfl
    | infinity t => cases h
    | zero t => cases s <;> cases h
    | finite t m e hm => cases s <;> cases t <;> cases h
  | zero s =>
    cases v with
    | notANumber => exact .inr rfl
    | infinity t => cases t <;> cases h
    | zero t => cases h
    | finite t m e hm => cases t <;> cases h
  | finite s m e hm =>
    cases v with
    | notANumber => exact .inr rfl
    | infinity t => cases s <;> cases t <;> cases h
    | zero t => cases s <;> cases h
    | finite t m' e' hm' => cases s <;> cases t <;> cases h

theorem compare_self {u : UnpackedFloat} (hu : u ≠ .notANumber) : u.compare u = some .eq := by
  cases u with
  | infinity s => cases s <;> rfl
  | notANumber => exact absurd rfl hu
  | zero s => rfl
  | finite s m e hm =>
    have heq : (compare e e).then (compare m m) = .eq := by
      rw [compare_eq_iff_eq.mpr rfl, compare_eq_iff_eq.mpr rfl]
      rfl
    cases s
    · exact congrArg (fun o => some (Ordering.swap o)) heq
    · exact congrArg some heq

/-- A double is at most itself when it stands for a number. -/
theorem le_self_iff (x : Float) : x ≤ x ↔ (decode x).unpacked ≠ .notANumber := by
  rw [le_iff_compare]
  refine ⟨fun h hx => ?_, fun hx => ?_⟩
  · rw [hx] at h
    cases h
  · rw [compare_self hx]
    rfl

theorem numbers_of_le {x y : Float} (h : x ≤ y) :
    (decode x).unpacked ≠ .notANumber ∧ (decode y).unpacked ≠ .notANumber := by
  rw [le_iff_compare] at h
  refine ⟨fun hx => ?_, fun hy => ?_⟩
  · rw [hx] at h
    cases h
  · rw [hy, compare_swap] at h
    cases h

/-- **Doubles are ordered scalars**, with their infinities and without a number. -/
instance : OrderedScalar Float where
  le_self_left h := (le_self_iff _).mpr (numbers_of_le h).1
  le_self_right h := (le_self_iff _).mpr (numbers_of_le h).2
  le_of_lt {x y} h := by
    rw [lt_iff_compare] at h
    rw [le_iff_compare, h]
    rfl
  le_of_not_lt {x y} hx hy h := by
    rw [le_self_iff] at hx hy
    rw [lt_iff_compare] at h
    rw [le_iff_compare, compare_swap]
    cases hc : (decode x).unpacked.compare (decode y).unpacked with
    | none => exact ((notANumber_of_compare hc).elim hx hy).elim
    | some o =>
      rw [hc] at h
      cases o with
      | lt => exact absurd rfl h
      | eq => rfl
      | gt => rfl

end CanvasScript.Binary64
