import CanvasScript.Proofs.Binary64.Encode
import CanvasScript.Proofs.Decimal.Numeral

/-!
# Shortest decimals read back

The shortest decimal of a double lies in its cell, and whatever lies in the cell rounds to the
double. So the text of a double is read as that double.

* `magnitudeBits_of_holds`: **what lies in the cell of a double rounds to it**, also at the ends and
  where the binade below begins.
* `holds_search`: the search ends in the cell, since some grid is finer than the cell.
* `read?_shortest`: **the shortest text of a finite double reads back as it**.

Out of scope: that no shorter text reads back as the double.
-/

namespace CanvasScript.Binary64

open Rounding

/-! ## Cells -/

/-- The distance from a mantissa to the lower end of its cell, in units of its last place. -/
def reach (m : Nat) (e : Int) : Rat := if m = 2 ^ 52 ∧ -1074 < e then 1 / 4 else 1 / 2

theorem reach_le (m : Nat) (e : Int) : reach m e ≤ 1 / 2 := by
  unfold reach
  split <;> linarith

theorem low_cell {m : Nat} (hm : 0 < m) (e : Int) :
    (cell m e).low = (m - reach m e) * (2 : Rat) ^ e := by
  have hpow : Nat.pow 2 52 = 2 ^ 52 := rfl
  unfold cell reach
  simp only [hpow]
  split
  · rw [magnitude_eq, zpow_sub₀ two_ne_zero]
    push_cast [show 1 ≤ 4 * m by omega]
    ring
  · rw [magnitude_eq, zpow_sub₀ two_ne_zero]
    push_cast [show 1 ≤ 2 * m by omega]
    ring

theorem middle_cell (m : Nat) (e : Int) : (cell m e).middle = m * (2 : Rat) ^ e := magnitude_eq m e

theorem high_cell (m : Nat) (e : Int) : (cell m e).high = (m + 1 / 2) * (2 : Rat) ^ e := by
  show magnitude (2 * m + 1) (e - 1) = _
  rw [magnitude_eq, zpow_sub₀ two_ne_zero]
  push_cast
  ring

/-- What lies in a cell, in units of the last place. -/
theorem of_holds {m : Nat} (hm : 0 < m) {e : Int} {q : Rat} (h : (cell m e).holds q = true) :
    (m : Rat) - reach m e ≤ q / 2 ^ e ∧ q / 2 ^ e ≤ m + 1 / 2 ∧
      (m % 2 = 0 ∨ (m : Rat) - reach m e < q / 2 ^ e ∧ q / 2 ^ e < m + 1 / 2) := by
  have hpos : (0 : Rat) < 2 ^ e := by positivity
  have hclosed : (cell m e).closed = (m % 2 == 0) := rfl
  unfold Decimal.Cell.holds at h
  rw [low_cell hm, high_cell] at h
  simp only [le_div_iff₀ hpos, div_le_iff₀ hpos, lt_div_iff₀ hpos, div_lt_iff₀ hpos]
  split at h
  · rename_i heven
    rw [hclosed, beq_iff_eq] at heven
    rw [Bool.and_eq_true, decide_eq_true_eq, decide_eq_true_eq] at h
    exact ⟨h.1, h.2, .inl heven⟩
  · rw [Bool.and_eq_true, decide_eq_true_eq, decide_eq_true_eq] at h
    exact ⟨h.1.le, h.2.le, .inr h⟩

/-- What lies between a double and the upper end of its cell lies in the cell. -/
theorem holds_of_lt_high {m : Nat} (hm : 0 < m) {e : Int} {q : Rat} (hl : (cell m e).middle < q)
    (hu : q < (cell m e).high) : (cell m e).holds q = true := by
  have hlow : (cell m e).low ≤ (cell m e).middle := by
    rw [low_cell hm, middle_cell]
    refine mul_le_mul_of_nonneg_right ?_ (by positivity)
    unfold reach
    split <;> linarith
  unfold Decimal.Cell.holds
  split
  · rw [decide_eq_true (hlow.trans hl.le), decide_eq_true hu.le]
    rfl
  · rw [decide_eq_true (hlow.trans_lt hl), decide_eq_true hu]
    rfl

/-- Encoding with the exponent that it aims at. -/
theorem magnitudeBits_eq {q : Rat} (hq : 0 < q) {e : Int} {n : Nat}
    (haim : max (log2 q - 52) (-1074) = e) (he : e ≤ 971) (hround : halfEven (q / 2 ^ e) = n)
    (hn : n ≤ 2 ^ 53) :
    magnitudeBits q = (e + 1074).toNat * 2 ^ 52 + n := by
  have hpow : Nat.pow 2 52 = 2 ^ 52 := rfl
  unfold magnitudeBits
  simp only [if_neg (not_le.mpr hq), haim, hround, Int.toNat_natCast, hpow]
  split <;> omega

/-- What lies in a cell is positive and finite. -/
theorem bounds_of_holds {m : Nat} (hm : 0 < m) {e : Int} (hc : Canonical m e) {q : Rat}
    (h : (cell m e).holds q = true) : (2 : Rat) ^ (e - 1) ≤ q ∧ q < 2 ^ (e + 53) := by
  obtain ⟨hl, hu, -⟩ := of_holds hm h
  have hpos : (0 : Rat) < 2 ^ e := by positivity
  have hm1 : (1 : Rat) ≤ m := by exact_mod_cast hm
  have hm53 : (m : Rat) + 1 ≤ 2 ^ (53 : Int) := by exact_mod_cast hc.mantissa_lt
  have hreach := reach_le m e
  constructor
  · rw [sub_eq_neg_add, zpow_add₀ two_ne_zero, ← le_div_iff₀ hpos, zpow_neg_one]
    linarith
  · rw [add_comm, zpow_add₀ two_ne_zero, ← div_lt_iff₀ hpos]
    linarith

/-- Below a binade lies a finer one, and rounding there carries over to the first mantissa. -/
theorem magnitudeBits_carry {e : Int} (he : -1074 < e) (hge : e ≤ 971) {q : Rat}
    (hl : (2 : Rat) ^ 52 - 1 / 4 ≤ q / 2 ^ e) (hu : q / 2 ^ e < 2 ^ 52) :
    magnitudeBits q = (e + 1074).toNat * 2 ^ 52 + 2 ^ 52 := by
  have hpos : (0 : Rat) < 2 ^ e := by positivity
  have hq : 0 < q := (div_pos_iff_of_pos_right hpos).mp (lt_of_lt_of_le (by norm_num) hl)
  have hlog : log2 q = e + 51 := by
    apply log2_eq
    · rw [add_comm, zpow_add₀ two_ne_zero, ← le_div_iff₀ hpos]
      exact le_trans (by norm_num) hl
    · rw [add_assoc, add_comm, zpow_add₀ two_ne_zero, ← div_lt_iff₀ hpos]
      exact_mod_cast hu
  have hdouble : q / 2 ^ (e - 1) = q / 2 ^ e * 2 := by
    rw [zpow_sub₀ two_ne_zero, zpow_one, div_div_eq_mul_div, mul_div_right_comm]
  have hround : halfEven (q / 2 ^ (e - 1)) = ((2 ^ 53 : Nat) : Int) := by
    have hcast : (((2 ^ 53 : Nat) : Int) : Rat) = 2 ^ 53 := by norm_num
    rw [hdouble]
    refine halfEven_eq ?_ ?_ (.inl (by decide)) <;> rw [hcast]
    · linarith
    · linarith
  rw [magnitudeBits_eq hq (by omega : max (log2 q - 52) (-1074) = e - 1) (by omega) hround le_rfl]
  omega

/-- **What lies in the cell of a double rounds to it.** -/
theorem magnitudeBits_of_holds {m : Nat} (hm : 0 < m) {e : Int} (hc : Canonical m e) {q : Rat}
    (h : (cell m e).holds q = true) :
    magnitudeBits q = (e + 1074).toNat * 2 ^ 52 + m := by
  obtain ⟨hlower, hupper⟩ := bounds_of_holds hm hc h
  obtain ⟨hmantissa, hle, hge, hfull⟩ := hc
  obtain ⟨hl, hu, htie⟩ := of_holds hm h
  have hpos : (0 : Rat) < 2 ^ e := by positivity
  have hq : 0 < q := lt_of_lt_of_le (by positivity) hlower
  have hreach := reach_le m e
  by_cases hcarry : m = 2 ^ 52 ∧ -1074 < e ∧ q / 2 ^ e < 2 ^ 52
  · obtain ⟨rfl, he, hlt⟩ := hcarry
    have hquarter : reach (2 ^ 52) e = 1 / 4 := if_pos ⟨rfl, he⟩
    have hcast : ((2 ^ 52 : Nat) : Rat) = 2 ^ 52 := by norm_num
    rw [hquarter, hcast] at hl
    exact magnitudeBits_carry he hge hl hlt
  · have hround : halfEven (q / 2 ^ e) = m := by
      refine halfEven_eq ?_ ?_ (htie.imp (fun heven => by omega) fun hopen => ?_) <;>
        rw [Int.cast_natCast]
      · linarith
      · exact hu
      · exact ⟨by linarith [hopen.1], hopen.2⟩
    have hlog : log2 q < e + 53 := log2_lt hq hupper
    refine magnitudeBits_eq hq ?_ hge hround hmantissa.le
    rcases hle.eq_or_lt with rfl | he
    · omega
    · have hm52 := hfull.resolve_right he.ne'
      have hx52 : (2 : Rat) ^ 52 ≤ q / 2 ^ e := by
        rcases hm52.eq_or_lt with hm52 | hm52
        · exact not_lt.mp fun hlt => hcarry ⟨hm52.symm, he, hlt⟩
        · have : (2 : Rat) ^ 52 + 1 ≤ m := by exact_mod_cast hm52
          linarith
      have : log2 q = e + 52 := by
        apply log2_eq
        · rw [add_comm, zpow_add₀ two_ne_zero, ← le_div_iff₀ hpos]
          exact_mod_cast hx52
        · rwa [add_assoc]
      omega

/-! ## The search -/

/-- A hit lies in the cell. -/
theorem holds_of_hit? {cell : Decimal.Cell} {unit : Rat} {n : Nat} (h : cell.hit? unit = some n) :
    cell.holds (n * unit) = true := by
  unfold Decimal.Cell.hit? at h
  simp only at h
  split at h
  · rename_i hbelow _
    cases h
    exact hbelow
  · rename_i _ habove
    cases h
    exact habove
  · cases h
  · rename_i hbelow habove
    split at h
    · cases h
      exact hbelow
    · split at h
      · cases h
        exact habove
      · split at h
        · cases h
          exact hbelow
        · cases h
          exact habove

theorem hit?_isSome {cell : Decimal.Cell} {unit : Rat}
    (h : cell.holds (((cell.middle / unit).floor.toNat + 1 : Nat) * unit) = true) :
    (cell.hit? unit).isSome = true := by
  unfold Decimal.Cell.hit?
  simp only [h]
  cases cell.holds ((cell.middle / unit).floor.toNat * unit) with
  | false => rfl
  | true =>
    dsimp only
    split
    · rfl
    · split
      · rfl
      · split <;> rfl

/-- **The search ends in the cell** as soon as one of its grids has a point there. -/
theorem holds_search {cell : Decimal.Cell} {fuel : Nat} {exponent : Int} {k : Nat} (hk : k < fuel)
    (h : (cell.hit? ((10 : Rat) ^ (exponent - k))).isSome = true) :
    cell.holds ((cell.search fuel exponent).1 * (10 : Rat) ^ (cell.search fuel exponent).2) =
      true := by
  induction fuel generalizing exponent k with
  | zero => omega
  | succ fuel ih =>
    unfold Decimal.Cell.search
    cases hhit : cell.hit? ((10 : Rat) ^ exponent) with
    | some n => exact holds_of_hit? hhit
    | none =>
      cases k with
      | zero =>
        rw [Nat.cast_zero, sub_zero, hhit] at h
        cases h
      | succ k =>
        refine ih (k := k) (by omega) ?_
        rw [Nat.cast_succ, add_comm, ← sub_sub] at h
        exact h

/-- A grid that is finer than the upper half of a cell has a point there. -/
theorem hit?_of_fine {m : Nat} (hm : 0 < m) {e : Int} {unit : Rat} (hunit : 0 < unit)
    (hfine : unit < 2 ^ (e - 1)) : ((cell m e).hit? unit).isSome = true := by
  have hpos : (0 : Rat) < 2 ^ e := by positivity
  have hmiddle : 0 ≤ (cell m e).middle / unit := by
    rw [middle_cell]
    positivity
  have hfloor : (((cell m e).middle / unit).floor.toNat : Rat) =
      (((cell m e).middle / unit).floor : Int) := by
    exact_mod_cast congrArg (Int.cast (R := Rat))
      (Int.toNat_of_nonneg (Rat.le_floor_iff.mpr (by exact_mod_cast hmiddle)))
  have hbelow := Rat.floor_le ((cell m e).middle / unit)
  have habove := Rat.lt_floor_add_one ((cell m e).middle / unit)
  rw [le_div_iff₀ hunit] at hbelow
  rw [div_lt_iff₀ hunit] at habove
  have hhigh : (cell m e).high = (cell m e).middle + 2 ^ (e - 1) := by
    rw [high_cell, middle_cell, zpow_sub₀ two_ne_zero]
    ring
  refine hit?_isSome (holds_of_lt_high hm ?_ ?_)
  · rw [Nat.cast_succ, hfloor]
    exact_mod_cast habove
  · rw [Nat.cast_succ, hfloor, hhigh]
    linarith

/-- Powers of ten below powers of two. -/
theorem ten_zpow_le {k j : Int} (hpos : 10 * k ≤ 3 * j) (hneg : 33 * k ≤ 10 * j) :
    (10 : Rat) ^ k ≤ 2 ^ j := by
  rcases le_or_gt 0 k with hk | hk
  · refine (pow_le_pow_iff_left₀ (by positivity) (by positivity) three_ne_zero).mp ?_
    calc ((10 : Rat) ^ k) ^ 3
        = (10 ^ 3) ^ k := by rw [← zpow_natCast, ← zpow_natCast, zpow_comm]
      _ ≤ (2 ^ 10) ^ k := zpow_le_zpow_left₀ hk (by positivity) (by norm_num)
      _ = 2 ^ (10 * k) := by rw [← zpow_natCast, ← zpow_mul]; rfl
      _ ≤ 2 ^ (3 * j) := zpow_le_zpow_right₀ one_le_two hpos
      _ = (2 ^ j) ^ 3 := by rw [← zpow_natCast, ← zpow_mul, mul_comm]; rfl
  · refine (pow_le_pow_iff_left₀ (by positivity) (by positivity) (by decide : 10 ≠ 0)).mp ?_
    have hinverse : ((2 : Rat) ^ 33) ^ (-k) ≤ (10 ^ 10) ^ (-k) :=
      zpow_le_zpow_left₀ (by omega) (by positivity) (by norm_num)
    rw [zpow_neg, zpow_neg, inv_le_inv₀ (by positivity) (by positivity)] at hinverse
    calc ((10 : Rat) ^ k) ^ 10
        = (10 ^ 10) ^ k := by rw [← zpow_natCast, ← zpow_natCast, zpow_comm]
      _ ≤ (2 ^ 33) ^ k := hinverse
      _ = 2 ^ (33 * k) := by rw [← zpow_natCast, ← zpow_mul]; rfl
      _ ≤ 2 ^ (10 * j) := zpow_le_zpow_right₀ one_le_two hneg
      _ = (2 ^ j) ^ 10 := by rw [← zpow_natCast, ← zpow_mul, mul_comm]; rfl

/-- **The shortest decimal of a double lies in its cell.** -/
theorem holds_shortest {m : Nat} (hm : 0 < m) {e : Int} (hc : Canonical m e) :
    (cell m e).holds ((cell m e).shortest.1 * (10 : Rat) ^ (cell m e).shortest.2) = true := by
  have hlog : log2 (cell m e).middle = m.log2 + e := log2_magnitude hm
  have hm52 : m.log2 < 53 := (Nat.log2_lt hm.ne').mpr hc.mantissa_lt
  obtain ⟨-, hle, hge, -⟩ := hc
  unfold Decimal.Cell.shortest
  refine holds_search (k := 24) (by decide) (hit?_of_fine hm (by positivity) ?_)
  rw [hlog]
  calc (10 : Rat) ^ (((m.log2 : Int) + e) * 30103 / 100000 + 1 - (24 : Nat))
      ≤ 2 ^ (e - 2) := ten_zpow_le (by omega) (by omega)
    _ < 2 ^ (e - 1) := zpow_lt_zpow_right₀ one_lt_two (by omega)

/-! ## Reading -/

/-- A decimal of ordinary size is encoded as it is. -/
theorem ofDecimal_eq (negative : Bool) {d : Nat} (k : Int) (hd : 0 < d)
    (hl : (10 : Rat) ^ (-400 : Int) ≤ d * 10 ^ k) (hu : (d : Rat) * 10 ^ k < 10 ^ (400 : Int)) :
    ofDecimal negative d k = encode negative (d * (10 : Rat) ^ k) := by
  have hlow : (10 : Rat) ^ ((Decimal.digits d).length - 1 : Nat) ≤ d := by
    exact_mod_cast Decimal.pow_le_of_digits hd
  have hhigh : (d : Rat) < 10 ^ (Decimal.digits d).length := by
    exact_mod_cast Decimal.lt_pow_of_digits d
  have hlength := List.length_pos_iff.mpr (Decimal.digits_ne_nil d)
  have hpos : (0 : Rat) < 10 ^ k := by positivity
  have hsize : ((Decimal.digits d).length : Int) + k - 1 < 400 := by
    refine (zpow_lt_zpow_iff_right₀ (by norm_num : (1 : Rat) < 10)).mp (lt_of_le_of_lt ?_ hu)
    calc (10 : Rat) ^ (((Decimal.digits d).length : Int) + k - 1)
        = 10 ^ ((Decimal.digits d).length - 1 : Nat) * 10 ^ k := by
          rw [← zpow_natCast, ← zpow_add₀ (by norm_num : (10 : Rat) ≠ 0)]
          congr 1
          omega
      _ ≤ d * 10 ^ k := mul_le_mul_of_nonneg_right hlow hpos.le
  have hsize' : -400 < ((Decimal.digits d).length : Int) + k := by
    refine (zpow_lt_zpow_iff_right₀ (by norm_num : (1 : Rat) < 10)).mp (lt_of_le_of_lt hl ?_)
    calc (d : Rat) * 10 ^ k
        < 10 ^ (Decimal.digits d).length * 10 ^ k := mul_lt_mul_of_pos_right hhigh hpos
      _ = 10 ^ (((Decimal.digits d).length : Int) + k) := by
          rw [← zpow_natCast, ← zpow_add₀ (by norm_num : (10 : Rat) ≠ 0)]
  unfold ofDecimal
  simp only
  rw [if_neg (by omega), if_neg (by omega)]

theorem two_zpow_lt {e : Int} (he : e ≤ 971) : (2 : Rat) ^ (e + 53) < 10 ^ (400 : Int) :=
  calc (2 : Rat) ^ (e + 53)
      ≤ 2 ^ (3 * 400 : Int) := zpow_le_zpow_right₀ one_le_two (by omega)
    _ = (2 ^ (3 : Int)) ^ (400 : Int) := zpow_mul 2 3 400
    _ < 10 ^ (400 : Int) := zpow_lt_zpow_left₀ (by decide) (by positivity) (by norm_num)

theorem magnitude_lt {m : Nat} {e : Int} (hc : Canonical m e) :
    magnitude m e < 10 ^ (400 : Int) :=
  hc.magnitude_lt_two_zpow.trans (two_zpow_lt hc.exponent_le)

/-- What lies in the cell of a double has digits. -/
theorem pos_of_holds {m : Nat} (hm : 0 < m) {e : Int} (hc : Canonical m e) {d : Nat} {k : Int}
    (h : (cell m e).holds ((d : Rat) * 10 ^ k) = true) : 0 < d := by
  obtain ⟨hl, -⟩ := bounds_of_holds hm hc h
  rcases Nat.eq_zero_or_pos d with rfl | hd
  · rw [Nat.cast_zero, zero_mul] at hl
    exact absurd hl (not_le.mpr (by positivity))
  · exact hd

/-- **What lies in the cell of a double is read as it.** -/
theorem decode_ofDecimal {negative : Bool} {m : Nat} (hm : 0 < m) {e : Int} (hc : Canonical m e)
    {d : Nat} {k : Int} (h : (cell m e).holds ((d : Rat) * 10 ^ k) = true) :
    decode (ofDecimal negative d k) = .finite negative m e := by
  obtain ⟨hl, hu⟩ := bounds_of_holds hm hc h
  have hd := pos_of_holds hm hc h
  have hlow : (10 : Rat) ^ (-400 : Int) ≤ d * 10 ^ k :=
    calc (10 : Rat) ^ (-400 : Int)
        ≤ 2 ^ (-1075 : Int) := ten_zpow_le (by decide) (by decide)
      _ ≤ 2 ^ (e - 1) := zpow_le_zpow_right₀ one_le_two (by have := hc.le_exponent; omega)
      _ ≤ d * 10 ^ k := hl
  have hhigh : (d : Rat) * 10 ^ k < 10 ^ (400 : Int) :=
    calc (d : Rat) * 10 ^ k
        < 2 ^ (e + 53) := hu
      _ < 10 ^ (400 : Int) := two_zpow_lt hc.exponent_le
  rw [ofDecimal_eq negative k hd hlow hhigh]
  unfold encode
  rw [magnitudeBits_of_holds hm hc h]
  exact decode_ofBits (bitsOf_lt hc) (decodeBits_bitsOf hc)

theorem decode_ofDecimal_zero (negative : Bool) (k : Int) :
    decode (ofDecimal negative 0 k) = .finite negative 0 (-1074) := by
  unfold ofDecimal
  rw [if_pos (.inl rfl)]
  have hencode := decode_encode negative canonical_zero
  rwa [magnitude_zero] at hencode

/-- The text of a finite double: a sign, and the characters of its magnitude. -/
theorem reads_shortest {x : Float} {negative : Bool} {m : Nat} {e : Int}
    (h : decode x = .finite negative m e) : ∃ s q,
      shortest x = withSign negative s ∧ Decimal.Reads q s ∧
        ∀ (d : Nat) k, (d : Rat) * 10 ^ k = q →
          decode (ofDecimal negative d k) = .finite negative m e := by
  have hc := decode_canonical h
  unfold shortest
  rw [h]
  dsimp only
  split
  · rename_i hm
    subst hm
    obtain rfl : e = -1074 := hc.full.resolve_left (by decide)
    have hzero : ∀ c ∈ ['0'], c.isDigit = true := List.forall_mem_singleton.mpr (by decide)
    have hreads : Decimal.Reads 0 ['0', '.', '0'] := by
      refine ⟨⟨['0'], ['0'], none⟩, ⟨hzero, hzero, '0', [], rfl, fun _ => rfl⟩, rfl, ?_,
        .inl (List.cons_ne_nil _ _)⟩
      exact mul_eq_zero_of_left Nat.cast_zero _
    refine ⟨_, 0, rfl, hreads, fun d k hq => ?_⟩
    have hd : d = 0 := by
      have := (mul_eq_zero.mp hq).resolve_right (by positivity)
      exact_mod_cast this
    rw [hd]
    exact decode_ofDecimal_zero negative k
  · rename_i hm
    have hm : 0 < m := Nat.pos_of_ne_zero hm
    have hholds := holds_shortest hm hc
    refine ⟨_, _, rfl, Decimal.reads_floating (pos_of_holds hm hc hholds) _, fun d k hq => ?_⟩
    exact decode_ofDecimal hm hc (hq ▸ hholds)

/-- The text of a finite double is made of the characters of written numbers. -/
theorem isWritten_shortest {x : Float} {r : Rat} (h : toRat? x = .ok r) :
    Decimal.IsWritten (shortest x).toList ∧ (shortest x).toList ≠ [] := by
  obtain ⟨negative, m, e, hx, -, -⟩ := decode_of_toRat? h
  obtain ⟨s, q, hs, hreads, -⟩ := reads_shortest hx
  obtain ⟨c, rest, rfl, -⟩ := hreads.head
  rw [hs]
  unfold withSign
  rw [String.toList_ofList]
  split
  · exact ⟨hreads.written.cons (by decide), List.cons_ne_nil _ _⟩
  · exact ⟨hreads.written, List.cons_ne_nil _ _⟩

/-- **The shortest text of a finite double reads back as it.** -/
theorem read?_shortest {x : Float} {r : Rat} (h : toRat? x = .ok r) :
    ∃ numeral, Decimal.Numeral.read? (shortest x).toList = some numeral ∧ numeral.toScalar = x := by
  obtain ⟨negative, m, e, hx, -, -⟩ := decode_of_toRat? h
  obtain ⟨s, q, hs, hreads, hdecode⟩ := reads_shortest hx
  obtain ⟨d, k, hread, hq⟩ := hreads.read? negative
  refine ⟨.finite negative d k, ?_, eq_of_decode (hdecode d k hq) hx⟩
  rw [hs]
  unfold withSign
  rw [String.toList_ofList]
  exact hread

theorem signed_natAbs (n : Int) : signed (decide (n < 0)) n.natAbs = n := by
  rw [Nat.cast_natAbs, Int.cast_abs]
  unfold signed
  by_cases h : n < 0
  · rw [if_pos (decide_eq_true h), abs_of_neg (by exact_mod_cast h), neg_neg]
  · rw [if_neg (by simpa using h), abs_of_nonneg (by exact_mod_cast not_lt.mp h)]

theorem magnitude_eq_natAbs {negative : Bool} {m : Nat} {e : Int} {n : Int}
    (h : (n : Rat) = signed negative (magnitude m e)) : magnitude m e = n.natAbs := by
  have habs : |(n : Rat)| = magnitude m e := by
    rw [h]
    cases negative
    · exact abs_of_nonneg (magnitude_nonneg m e)
    · exact (abs_neg _).trans (abs_of_nonneg (magnitude_nonneg m e))
  rw [← habs, Nat.cast_natAbs, Int.cast_abs]

/-- **An integer that some double equals is read as such a double.** -/
theorem read?_integer {x : Float} {n : Int} (h : toRat? x = .ok n) :
    ∃ numeral, Decimal.Numeral.read? (Decimal.integer n) = some numeral ∧
      toRat? numeral.toScalar = .ok n := by
  refine ⟨_, Decimal.read?_integer n, ?_⟩
  show toRat? (ofDecimal (decide (n < 0)) n.natAbs 0) = .ok n
  obtain ⟨negative, m, e, -, hc, hn⟩ := decode_of_toRat? h
  have hmagnitude := magnitude_eq_natAbs hn
  rcases Nat.eq_zero_or_pos n.natAbs with hzero | hpos
  · rw [hzero, toRat?_of_decode (decode_ofDecimal_zero _ _), magnitude_zero, signed_zero,
      Int.natAbs_eq_zero.mp hzero, Int.cast_zero]
  · have hone : (1 : Rat) ≤ n.natAbs := by exact_mod_cast hpos
    have hlow : (10 : Rat) ^ (-400 : Int) ≤ n.natAbs * 10 ^ (0 : Int) := by
      rw [zpow_zero, mul_one]
      exact (zpow_le_one_of_nonpos₀ (by norm_num) (by decide)).trans hone
    have hhigh : (n.natAbs : Rat) * 10 ^ (0 : Int) < 10 ^ (400 : Int) := by
      rw [zpow_zero, mul_one, ← hmagnitude]
      exact magnitude_lt hc
    rw [ofDecimal_eq _ 0 hpos hlow hhigh, zpow_zero, mul_one, ← hmagnitude,
      toRat?_of_decode (decode_encode _ hc), hmagnitude, signed_natAbs]

end CanvasScript.Binary64
