import CanvasScript.Proofs.Scalar.Exact
import CanvasScript.Raster.Polygon
import Mathlib.Algebra.Group.Nat.Even
import Mathlib.Data.List.Sort

/-!
# Rows of a polygon

A row of a polygon (`polygon_mask`) is selected from the places where edges cross it. Each place
becomes a bound, the first cell whose centre is not left of it, and between descending bounds cells
are selected in turn.

* `Polygon.lt_firstRight`: **a cell lies before the bound of a place just when its centre is left of
  the place**.
* `Polygon.contains_between`: **a cell is selected when an odd number of bounds lie beyond it**.
* `Polygon.contains_row`: so a cell is selected when an odd number of places lie right of its
  centre.

Out of scope: the rounding of doubles.
-/

namespace CanvasScript.Polygon

open Scalar
open scoped Exact

/-! ## Bounds in turn -/

/-- **Cells between descending bounds are selected in turn**: a cell is when an odd number of bounds
lie beyond it. -/
theorem contains_between (start n : Nat) : ∀ bounds : List Nat,
    bounds.Pairwise (fun a b => b ≤ a) → (∀ b ∈ bounds, start ≤ b) →
    (Row.contains (between start bounds) n = true ↔
      start ≤ n ∧ Odd (bounds.countP fun b => decide (n < b))) := by
  intro bounds
  fun_induction between start bounds with
  | case1 => simp [Row.contains]
  | case2 last =>
    intro _ _
    rw [Row.contains_select]
    by_cases h : n < last <;> simp [h, Row.contains]
  | case3 stop next rest ih =>
    intro hsorted hstart
    obtain ⟨hstop, hsorted⟩ := List.pairwise_cons.mp hsorted
    obtain ⟨hnext, hsorted⟩ := List.pairwise_cons.mp hsorted
    have hle : next ≤ stop := hstop next List.mem_cons_self
    have hlow : start ≤ next := hstart next (by simp)
    have hrest := ih hsorted fun b hb => hstart b (by simp [hb])
    rw [Row.contains_select, Bool.or_eq_true, hrest, List.countP_cons, List.countP_cons]
    by_cases hbefore : n < next
    · have hboth : n < stop := by omega
      simp [hbefore, hboth, Nat.odd_iff, Nat.add_assoc]
    · -- no bound of the rest lies beyond the cell
      have hnone : rest.countP (fun b => decide (n < b)) = 0 := by
        refine List.countP_eq_zero.mpr fun b hb => ?_
        have := hnext b hb
        simp only [decide_eq_true_eq]
        omega
      by_cases hstop : n < stop
      · simp [hnone, hbefore, hstop]
        omega
      · simp [hnone, hbefore, hstop]

/-! ## The bound of a place -/

section

variable {K : Type} [Field K] [LinearOrder K] [FloorRing K] [ScalarFunctions K]

theorem firstRight_mem (x : K) {low high : Nat} (h : low ≤ high) :
    low ≤ firstRight x low high ∧ firstRight x low high ≤ high := by
  fun_induction firstRight x low high with
  | case1 low high hlt middle hleft ih =>
    have := ih (by omega)
    omega
  | case2 low high hlt middle hright ih =>
    have := ih (by omega)
    omega
  | case3 low high hlt => omega

theorem center_eq (n : Nat) : (center n : K) = n + 1 / 2 := by
  show ((n : Int) : K) + ((1 / 2 : Rat) : K) = n + 1 / 2
  push_cast
  rfl

variable [IsStrictOrderedRing K]

theorem center_le_center {m n : Nat} (h : m ≤ n) : (center m : K) ≤ center n := by
  rw [center_eq, center_eq]
  exact add_le_add_left (Nat.cast_le.mpr h) _

/-- **A cell lies before the bound of a place just when its centre is left of the place.** -/
theorem lt_firstRight {x : K} {low high n : Nat} (hlow : low ≤ n) (hhigh : n < high) :
    n < firstRight x low high ↔ center n < x := by
  fun_induction firstRight x low high with
  | case1 low high hlt middle hleft ih =>
    by_cases hn : n ≤ middle
    · have hbound := (firstRight_mem x (show middle + 1 ≤ high by omega)).1
      exact iff_of_true (by omega) ((center_le_center hn).trans_lt hleft)
    · exact ih (by omega) hhigh
  | case2 low high hlt middle hright ih =>
    by_cases hn : n < middle
    · exact ih hlow hn
    · have hbound := (firstRight_mem x (show low ≤ middle by omega)).2
      have hcenter : x ≤ center n := (not_lt.mp hright).trans (center_le_center (by omega))
      exact iff_of_false (by omega) (not_lt.mpr hcenter)
  | case3 low high hlt => omega

/-- **A cell of a row is selected when an odd number of places lie right of its centre.** -/
theorem contains_row {left right : Nat} (hle : left ≤ right) (places : List K) (n : Nat) :
    Row.contains (row left right places) n = true ↔
      (left ≤ n ∧ n < right) ∧ Odd (places.countP fun x => decide (center n < x)) := by
  have hperm := List.mergeSort_perm (places.map fun x => firstRight x left right)
    (fun a b => decide (b ≤ a))
  have hsorted : ((places.map fun x => firstRight x left right).mergeSort
      (fun a b => decide (b ≤ a))).Pairwise (fun a b => decide (b ≤ a) = true) :=
    List.pairwise_mergeSort (by simp; omega) (by simp; omega) _
  have hstart : ∀ b ∈ (places.map fun x => firstRight x left right).mergeSort
      (fun a b => decide (b ≤ a)), left ≤ b := by
    intro b hb
    obtain ⟨x, -, rfl⟩ := List.mem_map.mp (hperm.mem_iff.mp hb)
    exact (firstRight_mem x hle).1
  unfold row
  rw [contains_between left n _ (hsorted.imp of_decide_eq_true) hstart, hperm.countP_eq,
    List.countP_map, and_assoc]
  refine and_congr_right fun hleft => ?_
  by_cases hright : n < right
  · have hcount : (places.countP ((fun b => decide (n < b)) ∘ fun x => firstRight x left right)) =
        places.countP fun x => decide (center n < x) :=
      List.countP_congr fun x _ => by simp [lt_firstRight hleft hright]
    rw [hcount]
    exact (and_iff_right hright).symm
  · have hnone : (places.countP ((fun b => decide (n < b)) ∘ fun x => firstRight x left right)) =
        0 := by
      refine List.countP_eq_zero.mpr fun x _ => ?_
      have := (firstRight_mem x hle).2
      simp only [Function.comp_apply, decide_eq_true_eq]
      omega
    rw [hnone]
    simp [hright]

end

end CanvasScript.Polygon
