import CanvasScript.Proofs.Raster.Polygon

/-!
# Outlines

What is inside a polygon (`polygon_mask`) depends on its edges alone. Each of them counts from
either end, so the outline may start at any of its points and run either way round. A chord that
cuts a polygon in two is an edge of both parts and cancels out, so every place inside the polygon is
inside one of them.

* `Polygon.cuts`: how many edges of a path cross the row of a place to the right of it.
* `Polygon.cuts_append`, `Polygon.cuts_reverse`: **they add up along the path, and are the same on
  the way back**.
* `Polygon.inside_iff_cuts`: a place is inside where the closed path has an odd number of them.
* `Polygon.inside_rotate`, `Polygon.inside_reverse` and `Polygon.inside_chord`: **so where a polygon
  is cut, or how it is written, does not matter**.
* `Polygon.mask_outline`: **nor does it for the cells that are filled**.

Out of scope: the rounding of doubles, under which the place where an edge crosses a row may depend
on the end from which it is computed.
-/

namespace CanvasScript.Polygon

open Scalar
open scoped Exact

variable {K : Type} [Field K] [LinearOrder K] [FloorRing K] [ScalarFunctions K] {x y : K}

/-! ## Paths -/

/-- How many edges of a path cross the row at `y` right of `x`. -/
def cuts (x y : K) : List (Point K) → Nat
  | p :: q :: rest => cuts x y (q :: rest) + if cutsRight x y (q, p) then 1 else 0
  | _ => 0

/-- The edges of a path are those up to a point and those from it on. -/
theorem cuts_append (before : List (Point K)) (p : Point K) (rest : List (Point K)) :
    cuts x y (before ++ p :: rest) = cuts x y (before ++ [p]) + cuts x y (p :: rest) := by
  induction before with
  | nil => exact (Nat.zero_add _).symm
  | cons q more ih =>
    cases more with
    | nil =>
      have hcuts : cuts x y [q, p] = 0 + if cutsRight x y (p, q) then 1 else 0 := rfl
      rw [List.singleton_append, List.singleton_append, hcuts, Nat.zero_add, Nat.add_comm]
      rfl
    | cons r more =>
      have hcuts : cuts x y (q :: r :: more ++ p :: rest) =
          cuts x y (r :: more ++ p :: rest) + if cutsRight x y (r, q) then 1 else 0 := rfl
      rw [hcuts, ih, Nat.add_right_comm]
      rfl

theorem cuts_swap (p q : Point K) : cuts x y [p, q] = cuts x y [q, p] := by
  have hcuts (p q : Point K) : cuts x y [p, q] = 0 + if cutsRight x y (q, p) then 1 else 0 := rfl
  rw [hcuts, hcuts, cutsRight_swap]

/-- **The way back has the same edges.** -/
theorem cuts_reverse (path : List (Point K)) : cuts x y path.reverse = cuts x y path := by
  induction path with
  | nil => rfl
  | cons p rest ih =>
    cases rest with
    | nil => rfl
    | cons q rest =>
      calc cuts x y (p :: q :: rest).reverse
          = cuts x y (rest.reverse ++ q :: [p]) := by simp
        _ = cuts x y (q :: rest).reverse + cuts x y [q, p] := by
          rw [cuts_append, List.reverse_cons]
        _ = cuts x y (q :: rest) + cuts x y [p, q] := by rw [ih, cuts_swap]
        _ = cuts x y (p :: q :: rest) := by
          rw [Nat.add_comm]
          exact (cuts_append [p] q rest).symm

theorem cuts_eq_countP (p : Point K) (rest : List (Point K)) :
    cuts x y (p :: rest) = (rest.zip (p :: rest)).countP (cutsRight x y) := by
  induction rest generalizing p with
  | nil => rfl
  | cons q rest ih =>
    rw [List.zip_cons_cons, List.countP_cons, ← ih]
    rfl

/-! ## Closed paths -/

/-- **A place is inside where the path back to its start has an odd number of edges across the row
right of the place.** -/
theorem inside_iff_cuts {points : List (Point K)} {p : Point K} (h : points.head? = some p) :
    Inside points x y ↔ Odd (cuts x y (points ++ [p])) := by
  rcases points.eq_nil_or_concat' with rfl | ⟨front, last, rfl⟩
  · cases h
  obtain ⟨rest, hpoints⟩ := List.head?_eq_some_iff.mp h
  have hclosed : cuts x y (last :: (front ++ [last])) = cuts x y (front ++ [last] ++ [p]) :=
    calc cuts x y (last :: (front ++ [last]))
        = cuts x y [last, p] + cuts x y (p :: rest) := by
          rw [hpoints]
          exact cuts_append [last] p rest
      _ = cuts x y (front ++ [last]) + cuts x y [last, p] := by rw [Nat.add_comm, hpoints]
      _ = cuts x y (front ++ [last] ++ [p]) := by
          rw [List.append_assoc]
          exact (cuts_append front last [p]).symm
  rw [inside_iff, ← hclosed, cuts_eq_countP]
  unfold edges
  rw [List.getLast?_concat]

/-- **A polygon may start at any of its points.** -/
theorem inside_rotate (points : List (Point K)) (k : Nat) :
    Inside (points.rotate k) x y ↔ Inside points x y := by
  have hedges : (points.rotate k).zip ((points.rotate k).rotate ((points.rotate k).length - 1)) =
      (points.zip (points.rotate (points.length - 1))).rotate k := by
    rw [List.length_rotate, List.rotate_rotate, Nat.add_comm, ← List.rotate_rotate]
    exact (List.zipWith_rotate_distrib _ _ _ _ (List.length_rotate ..).symm).symm
  unfold Inside
  rw [hedges, (List.rotate_perm _ k).countP_eq]

/-- **A polygon may run either way round.** -/
theorem inside_reverse (points : List (Point K)) :
    Inside points.reverse x y ↔ Inside points x y := by
  cases points with
  | nil => rfl
  | cons p rest =>
    have hturned : (p :: rest).reverse.rotate rest.length = p :: rest.reverse := by
      rw [List.reverse_cons, ← List.length_reverse]
      exact List.rotate_append_length_eq ..
    have hback : p :: rest.reverse ++ [p] = (p :: rest ++ [p]).reverse := by simp
    rw [← inside_rotate _ rest.length, hturned, inside_iff_cuts rfl, hback, cuts_reverse,
      ← inside_iff_cuts rfl]

/-- A chord between two points cuts a polygon in two. It counts for both parts, so what is inside
the polygon is inside one of them only. -/
theorem inside_parts {front back : List (Point K)} {p q : Point K}
    (h : (front ++ [q]).head? = some p) :
    Inside (front ++ q :: back) x y ↔
      (Inside (front ++ [q]) x y ↔ ¬ Inside (q :: back ++ [p]) x y) := by
  have hwhole : cuts x y (front ++ q :: back ++ [p]) =
      cuts x y (front ++ [q]) + cuts x y (q :: back ++ [p]) := by
    rw [List.append_assoc]
    exact cuts_append front q (back ++ [p])
  have hnear : cuts x y (front ++ [q] ++ [p]) = cuts x y (front ++ [q]) + cuts x y [p, q] := by
    rw [List.append_assoc, cuts_swap]
    exact cuts_append front q [p]
  have hfar : cuts x y (q :: back ++ [p] ++ [q]) =
      cuts x y (q :: back ++ [p]) + cuts x y [p, q] := by
    rw [List.append_assoc]
    exact cuts_append (q :: back) p [q]
  have hhead : (front ++ q :: back).head? = some p := by
    rw [← List.singleton_append, ← List.append_assoc, List.head?_append, h]
    rfl
  have hhead' : (q :: back ++ [p]).head? = some q := rfl
  rw [inside_iff_cuts hhead, inside_iff_cuts h, inside_iff_cuts hhead', hwhole, hnear, hfar]
  grind

/-- **A chord from the first point cuts a polygon in two parts**, and a place inside the polygon is
inside one of them only. -/
theorem inside_chord (points : List (Point K)) (k : Nat) :
    Inside points x y ↔ (Inside (points.take (k + 1)) x y ↔
      ¬ Inside (points.drop k ++ points.take 1) x y) := by
  by_cases hk : k < points.length
  · obtain ⟨p, rest, hpoints⟩ := List.exists_cons_of_length_pos (Nat.zero_lt_of_lt hk)
    have hhead : (points.take k ++ [points[k]]).head? = some p := by
      rw [← List.take_succ_eq_append_getElem hk, hpoints]
      rfl
    have hfirst : points.take 1 = [p] := by rw [hpoints]; rfl
    have hparts : Inside (points.take k ++ points[k] :: points.drop (k + 1)) x y ↔ _ :=
      inside_parts hhead
    rwa [List.getElem_cons_drop, List.take_append_drop, ← hfirst,
      ← List.take_succ_eq_append_getElem hk] at hparts
  · have hlast : ¬ Inside (points.drop k ++ points.take 1) x y := by
      rw [List.drop_of_length_le (Nat.le_of_not_lt hk), List.nil_append]
      exact not_inside_of_length ((List.length_take_le ..).trans_lt (by decide))
    rw [List.take_of_length_le (by omega), iff_true_right hlast]

/-! ## Masks -/

/-- The mask of a polygon selects these cells of a canvas, row by row. -/
def Fills (width height : Nat) (points : List (Point K)) (cells : Nat → Nat → Bool) : Prop :=
  ∃ selected, mask width height points = .ok selected ∧ selected.rows.size = height ∧
    ∀ x y, selected.contains x y = cells x y

/-- The cells of a canvas that are inside a polygon. -/
def cellsInside (width height : Nat) (points : List (Point K)) (x y : Nat) : Bool :=
  decide ((x < width ∧ y < height) ∧ Inside points (center x) (center y))

theorem cellsInside_congr {points others : List (Point K)}
    (h : ∀ x y, Inside points x y ↔ Inside others x y) (width height : Nat) :
    cellsInside width height points = cellsInside width height others :=
  funext₂ fun _ _ => decide_eq_decide.mpr (and_congr_right fun _ => h _ _)

/-- **A chord divides the cells inside a polygon** between its two parts. -/
theorem cellsInside_chord (width height : Nat) (points : List (Point K)) (k x y : Nat) :
    cellsInside width height points x y =
      (cellsInside width height (points.take (k + 1)) x y ^^
        cellsInside width height (points.drop k ++ points.take 1) x y) := by
  have hchord := inside_chord points k (x := (center x : K)) (y := center y)
  unfold cellsInside
  by_cases hcell : x < width ∧ y < height
  · simp only [hcell, true_and, hchord]
    by_cases hnear : Inside (points.take (k + 1)) (center x : K) (center y) <;> simp [hnear]
  · simp [hcell]

variable [IsStrictOrderedRing K]

theorem fills_cellsInside (width height : Nat) (points : List (Point K)) :
    Fills width height points (cellsInside width height points) := by
  obtain ⟨selected, hmask, hsize, hcontains⟩ := exists_cells width height points
  refine ⟨selected, hmask, hsize, fun x y => ?_⟩
  rw [Bool.eq_iff_iff, hcontains]
  exact decide_eq_true_iff.symm

/-- **What a polygon fills does not depend on how its outline is written.** A chord from its first
point to any other one cuts it in two, and a cell is filled where just one of the two parts is: they
neither overlap nor leave a gap along the chord. And the outline may start at any point, and run
either way round. -/
theorem mask_outline (width height : Nat) (points : List (Point K)) :
    ∃ cells, Fills width height points cells ∧
      (∀ k, ∃ near far, Fills width height (points.take (k + 1)) near ∧
        Fills width height (points.drop k ++ points.take 1) far ∧
        ∀ x y, cells x y = (near x y ^^ far x y)) ∧
      (∀ k, Fills width height (points.rotate k) cells) ∧
      Fills width height points.reverse cells := by
  refine ⟨cellsInside width height points, fills_cellsInside width height points,
    fun k => ⟨_, _, fills_cellsInside .., fills_cellsInside ..,
      cellsInside_chord width height points k⟩, fun k => ?_, ?_⟩
  · rw [← cellsInside_congr (fun _ _ => inside_rotate points k)]
    exact fills_cellsInside ..
  · rw [← cellsInside_congr (fun _ _ => inside_reverse points)]
    exact fills_cellsInside ..

/-- An outline with corners in the centres of cells, and with the centre of a cell on its chord. -/
def arrow : List (Point Rat) :=
  [⟨1 / 2, 1 / 2⟩, ⟨7 / 2, 1 / 2⟩, ⟨7 / 2, 7 / 2⟩, ⟨3 / 2, 5 / 2⟩, ⟨1 / 2, 7 / 2⟩]

theorem mask_outline_arrow :
    ∃ cells near far, Fills 4 4 arrow cells ∧ Fills 4 4 (arrow.take 3) near ∧
      Fills 4 4 (arrow.drop 2 ++ arrow.take 1) far ∧
      (∀ x y, cells x y = (near x y ^^ far x y)) ∧
      Inside (arrow.take 3) (3 / 2) (3 / 2) ∧
      ¬ Inside (arrow.drop 2 ++ arrow.take 1) (3 / 2) (3 / 2) ∧
      Fills 4 4 (arrow.rotate 3) cells ∧ Fills 4 4 arrow.reverse cells := by
  have hnear : Inside (arrow.take 3) (3 / 2) (3 / 2) := by decide +kernel
  have hfar : ¬ Inside (arrow.drop 2 ++ arrow.take 1) (3 / 2) (3 / 2) := by decide +kernel
  obtain ⟨cells, hcells, hchord, hrotate, hreverse⟩ := mask_outline 4 4 arrow
  obtain ⟨near, far, hnearFills, hfarFills, hparts⟩ := hchord 2
  exact ⟨cells, near, far, hcells, hnearFills, hfarFills, hparts, hnear, hfar, hrotate 3, hreverse⟩

end CanvasScript.Polygon
