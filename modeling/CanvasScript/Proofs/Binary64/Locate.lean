import CanvasScript.Proofs.Binary64.Integer
import CanvasScript.Proofs.Playback.Next

/-!
# Doubles between integers

Where the integers are exact, rounding a double finds the integers next to it.

* `ofInt_add_one`: **the integer after an exact one is their sum**.
* `exists_toRat?`: a double between two finite ones is finite.
* `locatesTo`: **doubles are located among the integers below `2 ^ 53`**.
-/

namespace CanvasScript.Binary64

open Float.Model (UnpackedFloat)
open Float.Model.UnpackedFloat

/-! ## Sums -/

/-- A sum is the difference from the negated second term. -/
theorem add_unpacked (u v : UnpackedFloat) :
    UnpackedFloat.add format u v = UnpackedFloat.sub format u v.neg := by
  cases u with
  | notANumber => cases v <;> rfl
  | infinity s =>
    cases v with
    | infinity t => cases s <;> cases t <;> rfl
    | _ => rfl
  | zero s =>
    cases v with
    | zero t => cases s <;> cases t <;> rfl
    | finite t m e hm => cases t <;> rfl
    | infinity t => cases t <;> rfl
    | notANumber => rfl
  | finite s m e hm =>
    cases v with
    | finite t m' e' hm' =>
      have hneg (k : Nat) : t.apply (k : Int) = -((-t).apply (k : Int)) := by
        cases t
        · rfl
        · exact (neg_neg _).symm
      unfold UnpackedFloat.add UnpackedFloat.neg UnpackedFloat.sub
      simp only [hneg, sub_eq_add_neg]
    | infinity t => cases t <;> rfl
    | _ => rfl

theorem add_eq_sub_neg (x : Float) {y : Float} {b : Rat} (hy : toRat? y = .ok b) :
    x + y = x - -y := by
  obtain ⟨n, m, e, hdy, -, -⟩ := decode_of_toRat? hy
  apply eq_of_toModel
  rw [toModel_sub, decode_neg y hdy]
  show Float.Model.pack (UnpackedFloat.add format x.toModel.unpack y.toModel.unpack) = .pack _
  rw [unpack_toModel, unpack_toModel, hdy, add_unpacked, neg_unpacked]

/-- **The integer after an exact one is their sum.** -/
theorem ofInt_add_one {i : Int} (hi : 0 ≤ i) (hin : i < 2 ^ 53) :
    ofInt i + ofInt 1 = ofInt (i + 1) := by
  have hvi : toRat? (ofInt i) = .ok i := toRat?_ofInt (by omega)
  have hone : toRat? (ofInt 1) = .ok (1 : Int) := toRat?_ofInt (by decide)
  obtain ⟨d, hd⟩ : ∃ d : Nat, i + 1 = d := ⟨(i + 1).toNat, by omega⟩
  have h0 : 0 < d := by omega
  rw [hd, add_eq_sub_neg _ hone]
  by_cases hlt : d < 2 ^ 53
  · have hc := canonical_nat h0 hlt
    have hpos : 0 < d * 2 ^ (52 - d.log2) := Nat.mul_pos h0 (by positivity)
    have hsum : (i : Rat) - -(1 : Int) =
        signed false (magnitude (d * 2 ^ (52 - d.log2)) (d.log2 - 52)) := by
      rw [magnitude_nat h0 hlt, sub_neg_eq_add, ← Int.cast_add, hd]
      rfl
    rw [sub_eq hvi (toRat?_neg hone) hpos hc hsum]
    exact eq_of_decode (decode_ofDecoded hc) (decode_ofInt h0 hlt)
  · obtain rfl : i = 2 ^ 53 - 1 := by omega
    obtain rfl : d = 2 ^ 53 := by omega
    exact eq_of_toModel (by decide +kernel)

/-- Equal finite doubles differ by nothing, though by zeros of either sign. -/
theorem toRat?_sub_of_eq {x y : Float} {a : Rat} (hx : toRat? x = .ok a) (hy : toRat? y = .ok a) :
    toRat? (x - y) = .ok 0 := by
  obtain ⟨n₁, m₁, e₁, hdx, hcx, rfl⟩ := decode_of_toRat? hx
  obtain ⟨n₂, m₂, e₂, hdy, hcy, heq⟩ := decode_of_toRat? hy
  have hpositive {m : Nat} {e : Int} (hm : 0 < m) (n : Bool) : signed n (magnitude m e) ≠ 0 := by
    rw [← abs_pos, abs_signed]
    exact magnitude_pos hm e
  rcases Nat.eq_zero_or_pos m₁ with rfl | hm₁
  · rw [magnitude_zero, signed_zero] at heq
    obtain rfl : m₂ = 0 := Nat.eq_zero_of_not_pos fun hm₂ => hpositive hm₂ n₂ heq.symm
    have hzero : ∃ n, x - y = ofDecoded (.finite n 0 (-1074)) := by
      refine ⟨n₁ && !n₂, eq_of_toModel ?_⟩
      rw [toModel_sub, hdx, hdy]
      cases n₁ <;> cases n₂ <;> rfl
    obtain ⟨n, hn⟩ := hzero
    rw [hn, toRat?_of_decode (decode_ofDecoded canonical_zero), magnitude_zero, signed_zero]
  · have hm₂ : 0 < m₂ := by
      refine Nat.pos_of_ne_zero ?_
      rintro rfl
      rw [magnitude_zero, signed_zero] at heq
      exact hpositive hm₁ n₁ heq
    obtain ⟨rfl, hmag⟩ := signed_inj (magnitude_pos hm₁ e₁) (magnitude_pos hm₂ e₂) heq
    obtain ⟨rfl, rfl⟩ := hcx.unique hcy hmag
    obtain rfl := eq_of_decode hdx hdy
    rw [sub_self_eq hx]
    decide +kernel

/-! ## Between integers -/

/-- **A double between two finite ones is finite.** -/
theorem exists_toRat? {x v y : Float} {a b : Rat} (hx : toRat? x = .ok a) (hy : toRat? y = .ok b)
    (hxv : x ≤ v) (hvy : v ≤ y) : ∃ r, toRat? v = .ok r ∧ a ≤ r ∧ r ≤ b := by
  obtain ⟨n₁, m₁, e₁, hdx, -, -⟩ := decode_of_toRat? hx
  obtain ⟨n₂, m₂, e₂, hdy, -, -⟩ := decode_of_toRat? hy
  cases hdv : decode v with
  | finite n m e =>
    have hv := toRat?_of_decode hdv
    exact ⟨_, hv, (le_iff hx hv).mp hxv, (le_iff hv hy).mp hvy⟩
  | infinite negative =>
    -- an infinite double lies outside on the side of its sign
    cases negative with
    | false =>
      rw [le_iff_compare, hdv, hdy, compare_swap, compare_infinite] at hvy
      cases hvy
    | true =>
      rw [le_iff_compare, hdv, hdx, compare_infinite] at hxv
      cases hxv
  | undefined =>
    have hnumber := (numbers_of_le hvy).1
    rw [hdv] at hnumber
    exact absurd rfl hnumber

/-- A double between two integers equals a rational between them. -/
theorem exists_between {v : Float} {i j : Int} (hi : i.natAbs ≤ 2 ^ 53) (hj : j.natAbs ≤ 2 ^ 53)
    (hle : ofInt i ≤ v) (hge : v ≤ ofInt j) : ∃ r, toRat? v = .ok r ∧ (i : Rat) ≤ r ∧ r ≤ j :=
  exists_toRat? (toRat?_ofInt hi) (toRat?_ofInt hj) hle hge

/-- The nearest integer is less than one away. -/
theorem abs_sub_halfEven_lt (r : Rat) :
    r < Rounding.halfEven r + 1 ∧ (Rounding.halfEven r : Rat) - 1 < r := by
  constructor
  · by_contra hle
    have hnext : ((Rounding.halfEven r + 1 : Int) : Rat) ≤ r := by
      push_cast
      exact not_lt.mp hle
    have := Rounding.le_halfEven hnext
    omega
  · by_contra hle
    have hprevious : r ≤ ((Rounding.halfEven r - 1 : Int) : Rat) := by
      push_cast
      exact not_lt.mp hle
    have := Rounding.halfEven_le hprevious
    omega

/-- A difference of zero is within the tolerance. -/
theorem abs_lt_tolerance {x : Float} (hx : toRat? x = .ok 0) :
    Scalar.abs x < Scheduler.integerTolerance := by
  have hzero : toRat? (Scalar.zero : Float) = .ok 0 := by decide +kernel
  have htolerance : ((toRat? (Scheduler.integerTolerance : Float)).map
      fun q => decide (0 < q)).toOption = some true := by decide +kernel
  obtain ⟨q, hq, hpos⟩ : ∃ q, toRat? (Scheduler.integerTolerance : Float) = .ok q ∧ 0 < q := by
    cases hq : toRat? (Scheduler.integerTolerance : Float) with
    | error fault =>
      rw [hq] at htolerance
      cases htolerance
    | ok q =>
      rw [hq] at htolerance
      exact ⟨q, rfl, of_decide_eq_true (Option.some.inj htolerance)⟩
  unfold Scalar.abs
  rw [if_neg (mt (lt_iff hx hzero).mp (lt_irrefl 0))]
  exact (lt_iff hx hq).mpr hpos

/-- **Doubles are located among the integers below `2 ^ 53`.** -/
theorem locatesTo {n : Int} (hn : 0 ≤ n) (hbound : n < 2 ^ 53) : Scheduler.LocatesTo Float n where
  counts := countsTo.mono (by omega)
  add_one hi hin := ofInt_add_one hi (by omega)
  not_zero_lt := by decide +kernel
  round {v} hv hvn := by
    obtain ⟨r, hr, h0, hle⟩ := exists_between (i := 0) (j := n) (by decide) (by omega) hv hvn
    obtain ⟨hafter, hbefore⟩ := abs_sub_halfEven_lt r
    have hnonneg : 0 ≤ Rounding.halfEven r := Rounding.le_halfEven h0
    have hlast : Rounding.halfEven r ≤ n := Rounding.halfEven_le hle
    refine ⟨Rounding.halfEven r, congrArg (Except.map Rounding.halfEven) hr, hnonneg, hlast, ?_,
      fun hpos => ?_⟩
    · exact (lt_iff hr (toRat?_ofInt (by omega))).mpr (by exact_mod_cast hafter)
    · exact (lt_iff (toRat?_ofInt (by omega)) hr).mpr (by exact_mod_cast hbefore)
  ceil {v} hv hvn := by
    obtain ⟨r, hr, h0, hle⟩ := exists_between (i := 0) (j := n) (by decide) (by omega) hv hvn
    have hceil : r ≤ r.ceil := Rat.le_ceil
    have hnonneg : 0 ≤ r.ceil := by exact_mod_cast h0.trans hceil
    have hlast : r.ceil ≤ n := Rat.ceil_le_iff.mpr hle
    refine ⟨r.ceil, congrArg (Except.map Rat.ceil) hr, hnonneg, hlast, ?_⟩
    exact (le_iff hr (toRat?_ofInt (by omega))).mpr hceil
  floor {v} hv hvn := by
    obtain ⟨r, hr, h0, hle⟩ := exists_between (i := 0) (j := n) (by decide) (by omega) hv hvn
    have hnonneg : 0 ≤ r.floor := Rat.le_floor_iff.mpr h0
    have hfloor : (r.floor : Rat) ≤ r := Rat.floor_le r
    have hlast : r.floor ≤ n := by exact_mod_cast hfloor.trans hle
    refine ⟨r.floor, congrArg (Except.map Rat.floor) hr, hnonneg, hlast, ?_⟩
    exact (le_iff (toRat?_ofInt (by omega)) hr).mpr hfloor
  near {v i j} hj hjn hle hge hround := by
    have hvj := toRat?_ofInt (n := j) (by omega)
    obtain ⟨r, hr, h0, h1⟩ := exists_toRat? hvj hvj hle hge
    obtain rfl : r = j := le_antisymm h1 h0
    have hij : Rounding.halfEven (j : Rat) = i :=
      Except.ok.inj ((congrArg (Except.map Rounding.halfEven) hr).symm.trans hround)
    rw [Rounding.halfEven_intCast] at hij
    subst hij
    exact abs_lt_tolerance (toRat?_sub_of_eq hr hvj)
  lt_of_le_of_lt {v i j} hi hin hj hjn hle hlt := by
    have hvj := toRat?_ofInt (n := j) (by omega)
    obtain ⟨r, hr, h0, -⟩ := exists_toRat? (toRat?_ofInt (n := i) (by omega)) hvj hle
      (OrderedScalar.le_of_lt hlt)
    exact_mod_cast h0.trans_lt ((lt_iff hr hvj).mp hlt)
  lt_of_lt_of_le {v i j} hi hin hj hjn hlt hle := by
    have hvi := toRat?_ofInt (n := i) (by omega)
    obtain ⟨r, hr, -, h1⟩ := exists_toRat? hvi (toRat?_ofInt (n := j) (by omega))
      (OrderedScalar.le_of_lt hlt) hle
    exact_mod_cast ((lt_iff hvi hr).mp hlt).trans_le h1

end CanvasScript.Binary64
