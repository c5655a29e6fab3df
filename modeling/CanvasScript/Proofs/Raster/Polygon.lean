import CanvasScript.Proofs.Raster.Row
import Mathlib.Data.List.Rotate
import Mathlib.Data.Rat.Floor

/-!
# Filled polygons without rounding

A place is inside a polygon when an odd number of edges cross its row to the right of it, and a cell
when its centre is. The mask of a polygon (`polygon_mask`) looks only at the cells of its bounding
box, and at no polygon of less than three points; nothing is lost by either.

* `Polygon.cutsRight x y edge` says that an edge crosses the row at `y` right of `x`.
* `Polygon.Inside points x y`: an odd number of edges does so.
* `Polygon.Encloses`: along one axis, all of a polygon lies between two cells.

Results:
* `Polygon.even_crosses`: **a row is crossed by an even number of edges**, since a closed outline
  comes back to its start.
* `Polygon.ne_of_crosses`, `Polygon.crossing_mem`: **no edge along a row crosses it**, and one that
  does crosses it between its ends.
* `Polygon.not_inside_of_left`, `Polygon.not_inside_of_right`, `Polygon.not_inside_of_aside`: **no
  place beyond all points is inside**, so that no cell beyond the bounding box is.
* `Polygon.mask_inside`: **the mask of a polygon is the cells inside it**.

Out of scope: the rounding of doubles, which may bring a crossing to the other side of a centre.
-/

namespace CanvasScript

namespace Mask

theorem contains_ofRows (height : Nat) (rowOf : Nat → Row) (x y : Nat) :
    contains ⟨(Array.range height).map rowOf⟩ x y = true ↔
      y < height ∧ Row.contains (rowOf y) x = true := by
  unfold contains
  by_cases h : y < height
  · simp [h]
  · simp [h, Row.contains]

theorem contains_empty (height x y : Nat) : (empty height).contains x y = false := by
  unfold contains empty
  by_cases h : y < height
  · simp [h, Row.contains]
  · simp [h, Row.contains]

end Mask

namespace Polygon

open Scalar
open scoped Exact

/-! ## Closed outlines -/

/-- Going along a list, something changes an odd number of times just when it ends up changed. -/
theorem odd_changes {β : Type} (f : β → Bool) : ∀ (items : List β) (previous last : β),
    (previous :: items).getLast? = some last →
    (Odd ((items.zip (previous :: items)).countP fun pair => f pair.1 != f pair.2) ↔
      f previous ≠ f last)
  | [], previous, last, h => by
    cases h
    simp
  | item :: rest, previous, last, h => by
    have ih := odd_changes f rest item last (by simpa using h)
    rw [List.zip_cons_cons, List.countP_cons]
    by_cases hchange : f item = f previous
    · simpa [hchange] using ih
    · have hlast : f item ≠ f last ↔ f previous = f last := by
        revert hchange
        cases f item <;> cases f previous <;> cases f last <;> simp
      simp [hchange, Nat.odd_add_one, ih, hlast]

/-- The edges of a polygon join each point and the one before it in turn. -/
theorem edges_eq {β : Type} [Scalar β] (points : List (Point β)) :
    edges points = points.zip (points.rotate (points.length - 1)) := by
  rcases points.eq_nil_or_concat' with rfl | ⟨front, last, rfl⟩
  · rfl
  have hrotate : (front ++ [last]).rotate ((front ++ [last]).length - 1) = last :: front := by
    rw [List.length_append, List.length_singleton, Nat.add_sub_cancel]
    exact List.rotate_append_length_eq front [last]
  rw [hrotate]
  unfold edges
  rw [List.getLast?_concat]
  -- the last point is paired with the one before it, and not with itself once more
  calc (front ++ [last]).zip (last :: (front ++ [last]))
      = (front ++ [last] ++ []).zip ((last :: front) ++ [last]) := by
        rw [List.append_nil]
        rfl
    _ = (front ++ [last]).zip (last :: front) := by
        rw [List.zip_append (by simp), List.zip_nil_left, List.append_nil]

theorem mem_of_mem_edges {β : Type} {points : List (Point β)} {edge : Point β × Point β}
    (h : edge ∈ edges points) : edge.1 ∈ points ∧ edge.2 ∈ points := by
  unfold edges at h
  split at h
  · rename_i last hlast
    obtain ⟨hfirst, hsecond⟩ := List.of_mem_zip h
    refine ⟨hfirst, ?_⟩
    rcases List.mem_cons.mp hsecond with heq | hmem
    · rw [heq]
      exact List.mem_of_getLast? hlast
    · exact hmem
  · cases h

variable {K : Type} [Field K] [LinearOrder K] [FloorRing K] [ScalarFunctions K]

/-- **A row is crossed by an even number of edges.** -/
theorem even_crosses (points : List (Point K)) (y : K) :
    Even ((edges points).countP (crosses y)) := by
  unfold edges
  split
  · rename_i last hlast
    rw [← Nat.not_odd_iff_even]
    have hends : (last :: points).getLast? = some last := by
      rw [List.getLast?_cons, hlast]
      rfl
    intro hodd
    exact (odd_changes (fun p : Point K => decide (y < p.y)) points last last hends).mp hodd rfl
  · simp

/-! ## Where an edge crosses a row -/

/-- An edge along a row does not cross it. -/
theorem ne_of_crosses {y : K} {edge : Point K × Point K} (h : crosses y edge = true) :
    edge.1.y ≠ edge.2.y := by
  intro heq
  unfold crosses at h
  rw [heq, bne_self_eq_false] at h
  cases h

/-- An edge crosses the row at `y` right of `x`. -/
def cutsRight (x y : K) (edge : Point K × Point K) : Bool :=
  crosses y edge && decide (x < crossing y edge)

/-- An edge crosses a row where the same edge does that goes the other way. -/
theorem cutsRight_swap (x y : K) (p q : Point K) : cutsRight x y (q, p) = cutsRight x y (p, q) := by
  have hcrosses : crosses y (q, p) = crosses y (p, q) := bne_comm
  unfold cutsRight
  rw [hcrosses]
  by_cases h : crosses y (p, q) = true
  · have hpq : q.y - p.y ≠ 0 := sub_ne_zero.mpr (ne_of_crosses h).symm
    have hqp : p.y - q.y ≠ 0 := sub_ne_zero.mpr (ne_of_crosses h)
    have hcrossing : crossing y (q, p) = crossing y (p, q) := by
      unfold crossing
      field_simp
      ring
    rw [hcrossing]
  · simp [h]

/-! ## Places inside -/

/-- A place is inside a polygon: of the edges from each point to the one before it, the first to the
last, an odd number cross the row of the place to the right of it. -/
def Inside (points : List (Point K)) (x y : K) : Prop :=
  Odd ((points.zip (points.rotate (points.length - 1))).countP (cutsRight x y))

instance (points : List (Point K)) (x y : K) : Decidable (Inside points x y) :=
  inferInstanceAs (Decidable (Odd _))

section

variable {points : List (Point K)} {x y : K}

theorem inside_iff : Inside points x y ↔ Odd ((edges points).countP (cutsRight x y)) := by
  rw [Inside, edges_eq]

theorem not_inside_iff : ¬ Inside points x y ↔ Even ((edges points).countP (cutsRight x y)) := by
  rw [inside_iff, Nat.not_odd_iff_even]

theorem not_inside_of_forall (h : ∀ edge ∈ edges points, cutsRight x y edge = false) :
    ¬ Inside points x y := by
  rw [not_inside_iff, List.countP_eq_zero.mpr fun edge hedge => by simp [h edge hedge]]
  exact Even.zero

/-- **Nothing is inside less than three points.** -/
theorem not_inside_of_length (h : points.length < 3) : ¬ Inside points x y := by
  rw [not_inside_iff]
  match points with
  | [] => exact Even.zero
  | [p] =>
    have hedges : edges [p] = [(p, p)] := rfl
    simp [hedges, cutsRight, crosses]
  | [p, q] =>
    have hedges : edges [p, q] = [(p, q), (q, p)] := rfl
    rw [hedges, List.countP_cons, List.countP_singleton, cutsRight_swap _ _ p q, ← two_mul]
    exact even_two_mul _

/-- Nothing is inside above or below all points: no edge crosses the row. -/
theorem not_inside_of_aside (h : (∀ p ∈ points, y < p.y) ∨ ∀ p ∈ points, p.y < y) :
    ¬ Inside points x y := by
  refine not_inside_of_forall fun edge hedge => ?_
  obtain ⟨hfirst, hsecond⟩ := mem_of_mem_edges hedge
  unfold cutsRight crosses
  rcases h with h | h
  · simp [h _ hfirst, h _ hsecond]
  · simp [(h _ hfirst).not_gt, (h _ hsecond).not_gt]

end

theorem mask_of_short (width height : Nat) {points : List (Point K)} (h : points.length < 3) :
    mask width height points = .ok (Mask.empty height) := by
  cases points with
  | nil => rfl
  | cons first rest => rw [mask, if_pos (by rw [decide_eq_true h, Bool.true_or])]

/-! ## Cells beyond all points -/

variable [IsStrictOrderedRing K]

/-- A row that an edge crosses lies part of the way between its ends. -/
theorem share_mem {y : K} {p q : Point K} (h : crosses y (p, q) = true) :
    0 ≤ (y - p.y) / (q.y - p.y) ∧ (y - p.y) / (q.y - p.y) ≤ 1 := by
  have hdiffer : ¬ (y < p.y ↔ y < q.y) := by simpa [crosses] using h
  by_cases hp : y < p.y
  · have hq : q.y ≤ y := not_lt.mp fun hq => hdiffer (iff_of_true hp hq)
    have hneg : q.y - p.y < 0 := by linarith
    exact ⟨div_nonneg_of_nonpos (by linarith) hneg.le,
      (div_le_one_of_neg hneg).mpr (by linarith)⟩
  · have hq : y < q.y := by
      by_contra hq
      exact hdiffer (iff_of_false hp hq)
    have hpos : 0 < q.y - p.y := by linarith [not_lt.mp hp]
    exact ⟨div_nonneg (by linarith [not_lt.mp hp]) hpos.le, (div_le_one hpos).mpr (by linarith)⟩

/-- **An edge crosses a row between its ends.** -/
theorem crossing_mem {y low high : K} {edge : Point K × Point K} (h : crosses y edge = true)
    (hlow : low ≤ edge.1.x ∧ low ≤ edge.2.x) (hhigh : edge.1.x ≤ high ∧ edge.2.x ≤ high) :
    low ≤ crossing y edge ∧ crossing y edge ≤ high := by
  obtain ⟨p, q⟩ := edge
  have hshare := share_mem h
  have hcrossing : crossing y (p, q) =
      (1 - (y - p.y) / (q.y - p.y)) * p.x + (y - p.y) / (q.y - p.y) * q.x := by
    unfold crossing
    ring
  generalize (y - p.y) / (q.y - p.y) = t at hshare hcrossing
  obtain ⟨ht₀, ht₁⟩ := hshare
  have ht : 0 ≤ 1 - t := sub_nonneg.mpr ht₁
  rw [hcrossing]
  constructor
  · linarith [mul_le_mul_of_nonneg_left hlow.1 ht, mul_le_mul_of_nonneg_left hlow.2 ht₀]
  · linarith [mul_le_mul_of_nonneg_left hhigh.1 ht, mul_le_mul_of_nonneg_left hhigh.2 ht₀]

section Beyond

variable {points : List (Point K)} {x y : K}

/-- Nothing is inside left of all points: every edge across the row crosses it to the right. -/
theorem not_inside_of_left (h : ∀ p ∈ points, x < p.x) : ¬ Inside points x y := by
  have hall : (edges points).countP (cutsRight x y) = (edges points).countP (crosses y) := by
    refine List.countP_congr fun edge hedge => ?_
    obtain ⟨hfirst, hsecond⟩ := mem_of_mem_edges hedge
    unfold cutsRight
    rw [Bool.and_eq_true, decide_eq_true_eq, and_iff_left_iff_imp]
    intro hcrosses
    have hcrossing := crossing_mem hcrosses ⟨min_le_left _ _, min_le_right _ _⟩
      ⟨le_max_left _ _, le_max_right _ _⟩
    exact (lt_min (h _ hfirst) (h _ hsecond)).trans_le hcrossing.1
  rw [not_inside_iff, hall]
  exact even_crosses points y

/-- Nothing is inside right of all points: no edge crosses the row to the right. -/
theorem not_inside_of_right (h : ∀ p ∈ points, p.x < x) : ¬ Inside points x y := by
  refine not_inside_of_forall fun edge hedge => ?_
  obtain ⟨hfirst, hsecond⟩ := mem_of_mem_edges hedge
  unfold cutsRight
  rw [Bool.and_eq_false_imp, decide_eq_false_iff_not, not_lt]
  intro hcrosses
  have hcrossing := crossing_mem hcrosses ⟨min_le_left _ _, min_le_right _ _⟩
    ⟨le_max_left _ _, le_max_right _ _⟩
  exact hcrossing.2.trans (max_lt (h _ hfirst) (h _ hsecond)).le

end Beyond

/-! ## The bounding box -/

/-- Along one axis, the cells before `low` lie before all of some coordinates, and those from `high`
on behind all of them. -/
structure Encloses (size low high : Nat) (coordinates : List K) : Prop where
  le_size : high ≤ size
  before : ∀ n < low, ∀ u ∈ coordinates, center n < u
  behind : ∀ n < size, high ≤ n → ∀ u ∈ coordinates, u < center n

/-- **The extent of some coordinates encloses them.** -/
theorem extent_encloses (size : Nat) (first : K) (rest : List K) :
    ∃ low high, extent size first rest = .ok (low, high) ∧
      Encloses size low high (first :: rest) := by
  have hextent : extent size first rest = .ok (⌊rest.foldl min first⌋.toNat,
      min size (⌈rest.foldl max first⌉ + 1).toNat) := by
    rw [← show least = (min : K → K → K) from funext₂ Exact.least_eq,
      ← show greatest = (max : K → K → K) from funext₂ Exact.greatest_eq]
    rfl
  have hleast := (List.min?_eq_some_iff.mp
    (show (first :: rest).min? = some (rest.foldl min first) from rfl)).2
  have hgreatest := (List.max?_eq_some_iff.mp
    (show (first :: rest).max? = some (rest.foldl max first) from rfl)).2
  refine ⟨_, _, hextent, min_le_left _ _, ?_, ?_⟩
  · intro n hn u hu
    have hfloor : ((n + 1 : Nat) : Int) ≤ ⌊rest.foldl min first⌋ := by omega
    have hle : ((n + 1 : Nat) : K) ≤ rest.foldl min first := by
      exact_mod_cast Int.le_floor.mp hfloor
    push_cast at hle
    rw [center_eq]
    linarith [hleast u hu]
  · intro n hn hhigh u hu
    have hceil : ⌈rest.foldl max first⌉ ≤ (n : Int) := by omega
    have hle : rest.foldl max first ≤ (n : K) := by
      exact_mod_cast Int.ceil_le.mp hceil
    rw [center_eq]
    linarith [hgreatest u hu]

/-! ## The mask of a polygon -/

/-- **No cell beyond the box about a polygon is inside it.** -/
theorem not_inside_beyond {width height left right top bottom : Nat} {points : List (Point K)}
    (hcolumns : Encloses width left right (points.map (·.x)))
    (hrows : Encloses height top bottom (points.map (·.y))) {x y : Nat} (hx : x < width)
    (hy : y < height) (h : ¬ ((left ≤ x ∧ x < right) ∧ top ≤ y ∧ y < bottom)) :
    ¬ Inside points (center x) (center y) := by
  have hx' : ∀ p ∈ points, p.x ∈ points.map (·.x) := fun p hp => List.mem_map_of_mem hp
  have hy' : ∀ p ∈ points, p.y ∈ points.map (·.y) := fun p hp => List.mem_map_of_mem hp
  by_cases hleft : x < left
  · exact not_inside_of_left fun p hp => hcolumns.before x hleft _ (hx' p hp)
  by_cases hright : right ≤ x
  · exact not_inside_of_right fun p hp => hcolumns.behind x hx hright _ (hx' p hp)
  by_cases htop : y < top
  · exact not_inside_of_aside (.inl fun p hp => hrows.before y htop _ (hy' p hp))
  · exact not_inside_of_aside (.inr fun p hp => hrows.behind y hy (by omega) _ (hy' p hp))

/-- Between two columns, a row of a polygon selects the cells inside it. -/
theorem contains_row_crossings {left right : Nat} (h : left ≤ right) (points : List (Point K))
    (x y : Nat) :
    Row.contains (row left right (crossings (center y) (edges points))) x = true ↔
      (left ≤ x ∧ x < right) ∧ Inside points (center x) (center y) := by
  have hcount :
      (crossings (center y) (edges points)).countP (fun place => decide (center x < place)) =
        (edges points).countP (cutsRight (center x) (center y)) := by
    rw [crossings, List.countP_map, List.countP_filter]
    refine List.countP_congr fun edge _ => ?_
    simp [cutsRight, and_comm]
  rw [contains_row h, hcount, inside_iff]

/-- The mask of a polygon is the cells of its box that are inside it. -/
theorem exists_mask {width height left right top bottom : Nat} {first : Point K}
    {rest : List (Point K)} (h : ¬ (first :: rest).length < 3)
    (hcolumns : extent width first.x (rest.map (·.x)) = .ok (left, right))
    (hrows : extent height first.y (rest.map (·.y)) = .ok (top, bottom)) :
    ∃ selected, mask width height (first :: rest) = .ok selected ∧ selected.rows.size = height ∧
      ∀ x y, selected.contains x y = true ↔
        y < height ∧ ((left ≤ x ∧ x < right) ∧ top ≤ y ∧ y < bottom) ∧
          Inside (first :: rest) (center x) (center y) := by
  have hfinite : (first :: rest).all isFinitePoint = true :=
    List.all_eq_true.mpr fun _ _ => rfl
  rw [mask, if_neg (by rw [decide_eq_false h, hfinite]; exact Bool.false_ne_true), hcolumns, hrows]
  by_cases hempty : right ≤ left ∨ bottom ≤ top
  · refine ⟨Mask.empty height, if_pos (by simpa using hempty), by simp [Mask.empty], fun x y => ?_⟩
    rw [Mask.contains_empty]
    exact iff_of_false Bool.false_ne_true fun h => by omega
  · refine ⟨_, if_neg (by simpa using hempty), by simp, fun x y => ?_⟩
    rw [Mask.contains_ofRows]
    refine and_congr_right fun _ => ?_
    by_cases hrow : top ≤ y ∧ y < bottom
    · rw [if_pos (by simpa using hrow), contains_row_crossings (by omega), and_iff_left hrow]
    · rw [if_neg (by simpa using hrow)]
      exact iff_of_false Bool.false_ne_true fun h => hrow h.1.2

/-- Every polygon has a mask, and its cells are those inside it, wherever it lies. -/
theorem exists_cells (width height : Nat) (points : List (Point K)) :
    ∃ selected, mask width height points = .ok selected ∧ selected.rows.size = height ∧
      ∀ x y, selected.contains x y = true ↔
        (x < width ∧ y < height) ∧ Inside points (center x) (center y) := by
  by_cases hshort : points.length < 3
  · refine ⟨_, mask_of_short width height hshort, by simp [Mask.empty], fun x y => ?_⟩
    simp [Mask.contains_empty, not_inside_of_length hshort]
  cases points with
  | nil => exact absurd (show 0 < 3 by decide) hshort
  | cons first rest =>
    obtain ⟨left, right, hcolumns, hx⟩ := extent_encloses width first.x (rest.map (·.x))
    obtain ⟨top, bottom, hrows, hy⟩ := extent_encloses height first.y (rest.map (·.y))
    obtain ⟨selected, hmask, hsize, hcontains⟩ := exists_mask hshort hcolumns hrows
    refine ⟨selected, hmask, hsize, fun x y => (hcontains x y).trans ?_⟩
    constructor
    · rintro ⟨hheight, hbox, hinside⟩
      exact ⟨⟨hbox.1.2.trans_le hx.le_size, hheight⟩, hinside⟩
    · rintro ⟨⟨hwidth, hheight⟩, hinside⟩
      refine ⟨hheight, ?_, hinside⟩
      by_contra hbox
      exact not_inside_beyond hx hy hwidth hheight hbox hinside

/-- **The mask of a polygon is the cells inside it**, and an edge that decides about a cell is not
along its row. -/
theorem mask_inside (width height : Nat) (points : List (Point K)) :
    (∃ selected, mask width height points = .ok selected ∧ selected.rows.size = height ∧
      ∀ x y : Nat, selected.contains x y = true ↔
        (x < width ∧ y < height) ∧ Inside points ((x : K) + 1 / 2) ((y : K) + 1 / 2)) ∧
    ∀ (y : K) (edge : Point K × Point K), crosses y edge = true → edge.1.y ≠ edge.2.y := by
  obtain ⟨selected, hmask, hsize, hcontains⟩ := exists_cells width height points
  refine ⟨⟨selected, hmask, hsize, fun x y => ?_⟩, fun y edge => ne_of_crosses⟩
  rw [hcontains, center_eq, center_eq]

/-- Two triangles that meet in a point, on both sides of a canvas and beyond it. -/
def bowTie : List (Point Rat) := [⟨-2, -1⟩, ⟨5, 3⟩, ⟨5, -1⟩, ⟨-2, 3⟩]

theorem mask_inside_bowTie :
    ∃ selected, mask 3 2 bowTie = .ok selected ∧ selected.rows.size = 2 ∧
      (∀ x y : Nat, selected.contains x y = true ↔
        (x < 3 ∧ y < 2) ∧ Inside bowTie ((x : Rat) + 1 / 2) ((y : Rat) + 1 / 2)) ∧
      Inside bowTie (1 / 2) (1 / 2) ∧ ¬ Inside bowTie (3 / 2) (1 / 2) ∧
      Inside bowTie (5 / 2) (1 / 2) ∧
      ∀ (y : Rat) (edge : Point Rat × Point Rat), crosses y edge = true →
        edge.1.y ≠ edge.2.y := by
  have hleft : Inside bowTie (1 / 2) (1 / 2) := by decide +kernel
  have hmiddle : ¬ Inside bowTie (3 / 2) (1 / 2) := by decide +kernel
  have hright : Inside bowTie (5 / 2) (1 / 2) := by decide +kernel
  obtain ⟨⟨selected, hmask, hsize, hcontains⟩, hcrosses⟩ := mask_inside 3 2 bowTie
  exact ⟨selected, hmask, hsize, hcontains, hleft, hmiddle, hright, hcrosses⟩

end Polygon

end CanvasScript
