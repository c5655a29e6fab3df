import CanvasScript.Geometry.Arc
import CanvasScript.Proofs.Scalar.Exact
import Mathlib.Data.List.Range
import Mathlib.Data.Rat.Floor
import Mathlib.Tactic.FieldSimp

/-!
# Arcs without rounding

Over exact scalars an arc covers the angle that its direction leaves it (`arc_sweep`), and its
points (`arc_points`) stand evenly on that angle. The turn is any positive number, and the sine and
the cosine are any functions.

* `Arc.IsSweep start finish counterclockwise s`: the angle `s` goes from one angle in radians to
  another in a direction, over a turn at most.
* `Arc.IsSampled start s angles`: angles go from `start` over all of `s` in equal steps, of which a
  turn has at least `96`.

Results:
* `Arc.sweep_reversed`: an arc that is drawn backward covers the opposite angle.
* `Arc.isSweep_sweep`: **the sweep of an arc goes from its start to its finish**.
* `Arc.exists_count`: an arc has as many points as its steps need, and one more.
* `Arc.points_sampled`: **the points of an arc sample its sweep**, and there are none only where it
  covers no angle or has no radius.

Out of scope: the rounding of doubles, by which a remainder may come out as a full turn.
-/

namespace CanvasScript.Arc

open Scalar
open scoped Exact

variable {K : Type} [Field K] [LinearOrder K] [FloorRing K] [ScalarFunctions K]

/-! ## Sweeps -/

/-- An angle goes from one angle in radians to another, in a direction. It is a full turn at most,
and where it is less it ends at the angle that it goes to. -/
structure IsSweep (start finish : K) (counterclockwise : Bool) (s : K) : Prop where
  range : if counterclockwise then -turn ≤ s ∧ s ≤ 0 else 0 ≤ s ∧ s ≤ turn
  meets : |s| ≠ turn → ∃ k : Int, s = finish - start + k * turn

/-- **An arc that is drawn backward covers the opposite angle.** -/
theorem sweep_reversed (start finish : K) :
    sweep start finish true = -sweep finish start false := by
  unfold sweep
  simp only [if_true, Bool.false_eq_true, if_false]
  split
  · rfl
  · rfl

variable [IsStrictOrderedRing K]

/-- What an angle leaves of whole turns. -/
theorem modulo_mem (hturn : 0 < (turn : K)) (x : K) :
    0 ≤ modulo x turn ∧ modulo x turn < turn ∧ ∃ k : Int, modulo x turn = x + k * turn := by
  have hmodulo : modulo x turn = x - ⌊x / turn⌋ * turn :=
    congrArg (x - ·) (mul_comm turn (⌊x / turn⌋ : K))
  rw [hmodulo]
  refine ⟨Int.sub_floor_div_mul_nonneg x hturn, Int.sub_floor_div_mul_lt x hturn,
    -⌊x / turn⌋, ?_⟩
  push_cast
  ring

theorem isSweep_clockwise (hturn : 0 < (turn : K)) (start finish : K) :
    IsSweep (radians start) (radians finish) false (sweep start finish false) := by
  unfold sweep
  simp only [Bool.false_eq_true, if_false]
  split
  · exact ⟨⟨hturn.le, le_rfl⟩, fun hne => absurd (abs_of_pos hturn) hne⟩
  · obtain ⟨hnonneg, hlt, hmeets⟩ := modulo_mem hturn (radians finish - radians start)
    exact ⟨⟨hnonneg, hlt.le⟩, fun _ => hmeets⟩

/-- **The sweep of an arc goes from its start to its finish.** -/
theorem isSweep_sweep (hturn : 0 < (turn : K)) (start finish : K) (counterclockwise : Bool) :
    IsSweep (radians start) (radians finish) counterclockwise
      (sweep start finish counterclockwise) := by
  cases counterclockwise with
  | false => exact isSweep_clockwise hturn start finish
  | true =>
    obtain ⟨⟨hnonneg, hle⟩, hmeets⟩ := isSweep_clockwise hturn finish start
    rw [sweep_reversed]
    refine ⟨⟨neg_le_neg hle, neg_nonpos.mpr hnonneg⟩, fun hne => ?_⟩
    rw [abs_neg] at hne
    obtain ⟨k, hk⟩ := hmeets hne
    refine ⟨-k, ?_⟩
    rw [hk]
    push_cast
    ring

theorem abs_sweep_le (hturn : 0 < (turn : K)) (start finish : K) (counterclockwise : Bool) :
    |sweep start finish counterclockwise| ≤ turn := by
  have hrange := (isSweep_sweep hturn start finish counterclockwise).range
  cases counterclockwise with
  | false => exact abs_le.mpr ⟨(neg_nonpos.mpr hturn.le).trans hrange.1, hrange.2⟩
  | true => exact abs_le.mpr ⟨hrange.1, hrange.2.trans hturn.le⟩

/-! ## Samples -/

/-- Angles go from a start over all of a sweep in equal steps, of which a turn has `96` or more. -/
structure IsSampled (start s : K) (angles : List K) : Prop where
  two_le : 2 ≤ angles.length
  le : angles.length ≤ 97
  first : angles.head? = some start
  last : angles.getLast? = some (start + s)
  steps : ∃ step, |step| ≤ turn / 96 ∧ angles.IsChain fun a b => b - a = step

/-- **An arc has as many points as its steps need, and one more.** -/
theorem exists_count (hturn : 0 < (turn : K)) {s : K} (hs : |s| ≤ turn) :
    ∃ n : Nat, count s = .ok n ∧ 2 ≤ n ∧ n ≤ 97 ∧ |s| / turn * 96 ≤ (n : K) - 1 := by
  have hceil : count s = .ok (max 2 (⌈|s| / turn * 96⌉ + 1)).toNat := by
    unfold count segmentsPerTurn
    rw [Exact.abs_eq, Exact.ofInt_eq, Int.cast_ofNat]
    rfl
  have hfull : |s| / turn * 96 ≤ ((96 : Int) : K) := by
    have hpart : |s| / turn ≤ 1 := (div_le_one hturn).mpr hs
    push_cast
    linarith
  have hle : ⌈|s| / turn * 96⌉ ≤ 96 := Int.ceil_le.mpr hfull
  refine ⟨_, hceil, by omega, by omega, ?_⟩
  have hsteps : ⌈|s| / turn * 96⌉ ≤ ((max 2 (⌈|s| / turn * 96⌉ + 1)).toNat : Int) - 1 := by omega
  calc |s| / turn * 96 ≤ (⌈|s| / turn * 96⌉ : K) := Int.le_ceil _
    _ ≤ (((max 2 (⌈|s| / turn * 96⌉ + 1)).toNat : Int) - 1 : Int) := Int.cast_le.mpr hsteps
    _ = ((max 2 (⌈|s| / turn * 96⌉ + 1)).toNat : K) - 1 := by push_cast; rfl

omit [ScalarFunctions K] in
theorem sub_one_pos {n : Nat} (hn : 2 ≤ n) : 0 < (n : K) - 1 :=
  sub_pos.mpr (Nat.one_lt_cast.mpr hn)

/-- The part of the way to a point, the last one included. -/
theorem fraction_eq {n i : Nat} (hn : 2 ≤ n) : (fraction n i : K) = i / ((n : K) - 1) := by
  have hpos : (0 : K) < (n : K) - 1 := sub_one_pos hn
  unfold fraction
  split
  · rename_i hlast
    have hi : (i : K) = (n : K) - 1 := by
      rw [← hlast]
      push_cast
      ring
    rw [Exact.one_eq, hi, div_self hpos.ne']
  · simp only [Exact.ofInt_eq, Exact.one_eq]
    push_cast
    rw [mul_one_div]

/-- The angles of the points that sample a sweep. -/
def angles (start s : K) (n : Nat) : List K := (List.range n).map fun i => start + s * fraction n i

/-- **Points of an even sample stand in equal steps.** -/
theorem isSampled_angles {n : Nat} (hn : 2 ≤ n) (hle : n ≤ 97) (hturn : 0 < (turn : K)) {s : K}
    (hs : |s| / turn * 96 ≤ (n : K) - 1) (start : K) : IsSampled start s (angles start s n) := by
  have hpos : (0 : K) < (n : K) - 1 := sub_one_pos hn
  obtain ⟨m, rfl⟩ : ∃ m, n = m + 2 := ⟨n - 2, by omega⟩
  have hlength (start s : K) : (angles start s (m + 2)).length = m + 2 := by
    unfold angles
    rw [List.length_map, List.length_range]
  refine ⟨(hlength start s).symm ▸ hn, (hlength start s).symm ▸ hle, ?_, ?_,
    s / (((m + 2 : Nat) : K) - 1), ?_, ?_⟩
  · unfold angles
    rw [List.range_succ_eq_map, List.map_cons, List.head?_cons, fraction_eq hn]
    simp
  · unfold angles
    rw [List.range_succ, List.map_append, List.map_singleton, List.getLast?_concat, fraction_eq hn]
    congr 2
    push_cast at hpos ⊢
    field_simp
    ring
  · rw [abs_div, abs_of_pos hpos, div_le_iff₀ hpos]
    have hsteps : |s| * 96 ≤ (((m + 2 : Nat) : K) - 1) * turn := by
      rwa [div_mul_eq_mul_div, div_le_iff₀ hturn] at hs
    linarith
  · unfold angles
    rw [List.isChain_map, List.isChain_range_succ]
    intro i _
    rw [fraction_eq hn, fraction_eq hn]
    push_cast at hpos ⊢
    field_simp
    ring

/-! ## Points -/

omit [IsStrictOrderedRing K] in
/-- Where an arc has no points. -/
theorem points_eq_nil {start finish : K} {counterclockwise : Bool} {radius : K}
    (h : sweep start finish counterclockwise = 0 ∨ radius ≤ 0) (x y : K) :
    points x y radius start finish counterclockwise = .ok [] := by
  unfold points
  refine if_pos ?_
  rw [Bool.or_eq_true, decide_eq_true_eq, Exact.zero_eq]
  refine h.imp (fun hzero => ?_) id
  rw [hzero]
  simp [same]

omit [IsStrictOrderedRing K] in
/-- And where it has some. -/
theorem points_eq_angles {start finish : K} {counterclockwise : Bool} {radius : K}
    (h : ¬ (sweep start finish counterclockwise = 0 ∨ radius ≤ 0)) {n : Nat}
    (hn : count (sweep start finish counterclockwise) = .ok n) (x y : K) :
    points x y radius start finish counterclockwise =
      .ok ((angles (radians start) (sweep start finish counterclockwise) n).map
        (pointAt x y radius)) := by
  unfold points
  rw [if_neg, hn]
  · unfold angles
    rw [List.map_map]
    rfl
  · rw [Bool.or_eq_true, decide_eq_true_eq, Exact.zero_eq]
    refine fun hnone => h (hnone.imp (fun hsame => ?_) id)
    rw [same, Bool.and_eq_true, decide_eq_true_eq, decide_eq_true_eq] at hsame
    exact le_antisymm hsame.1 hsame.2

/-- **The points of an arc sample its sweep.** The sweep goes from the start to the finish in the
direction of the arc, and is the opposite of that of the arc drawn backward. There are no points
just where it is nothing, or the radius is not positive. Else they stand at `2` to `97` angles,
from the start over the whole sweep, in equal steps of at most a `96`th of a turn. -/
theorem points_sampled (hturn : 0 < (turn : K)) (start finish : K) (counterclockwise : Bool) :
    IsSweep (radians start) (radians finish) counterclockwise
      (sweep start finish counterclockwise) ∧
    sweep start finish true = -sweep finish start false ∧
    ∀ x y radius : K, ∃ angles : List K,
      points x y radius start finish counterclockwise = .ok (angles.map (pointAt x y radius)) ∧
      (angles = [] ↔ sweep start finish counterclockwise = 0 ∨ radius ≤ 0) ∧
      (angles ≠ [] →
        IsSampled (radians start) (sweep start finish counterclockwise) angles) := by
  refine ⟨isSweep_sweep hturn start finish counterclockwise, sweep_reversed start finish,
    fun x y radius => ?_⟩
  by_cases hnone : sweep start finish counterclockwise = 0 ∨ radius ≤ 0
  · exact ⟨[], points_eq_nil hnone x y, iff_of_true rfl hnone, fun h => absurd rfl h⟩
  · obtain ⟨n, hcount, hn, hle, hsteps⟩ :=
      exists_count hturn (abs_sweep_le hturn start finish counterclockwise)
    have hsampled := isSampled_angles hn hle hturn hsteps (radians start)
    refine ⟨_, points_eq_angles hnone hcount x y, iff_of_false (fun hnil => ?_) hnone,
      fun _ => hsampled⟩
    have hlength := hsampled.two_le
    rw [hnil] at hlength
    cases hlength

/-- An arc over the start of the circle, the same one drawn backward, and one of two turns. -/
theorem points_sampled_wrapped :
    0 < (turn : Rat) ∧ sweep (350 : Rat) 10 false = 1 / 3 ∧ sweep (10 : Rat) 350 true = -(1 / 3) ∧
      sweep (0 : Rat) 720 false = turn ∧
      ∃ angles : List Rat, angles.length = 7 ∧
        points (5 : Rat) 4 10 350 10 false = .ok (angles.map (pointAt 5 4 10)) ∧
        IsSampled (radians 350) (1 / 3) angles := by
  have hturn : 0 < (turn : Rat) := by decide +kernel
  have hsweep : sweep (350 : Rat) 10 false = 1 / 3 := by decide +kernel
  obtain ⟨-, -, hpoints⟩ := points_sampled hturn (350 : Rat) 10 false
  obtain ⟨angles, hangles, hnil, hsampled⟩ := hpoints 5 4 10
  rw [hsweep] at hnil hsampled
  have hsome : angles ≠ [] := fun h => absurd (hnil.mp h) (by decide +kernel)
  have hlength : ((points (5 : Rat) 4 10 350 10 false).map List.length).toOption = some 7 := by
    decide +kernel
  rw [hangles] at hlength
  have hseven : (angles.map (pointAt 5 4 10)).length = 7 := Option.some.inj hlength
  rw [List.length_map] at hseven
  exact ⟨hturn, hsweep, by decide +kernel, by decide +kernel, angles, hseven, hangles,
    hsampled hsome⟩

end CanvasScript.Arc
