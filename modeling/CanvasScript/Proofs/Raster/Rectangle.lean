import CanvasScript.Proofs.Raster.Painting
import CanvasScript.Proofs.Raster.Polygon
import CanvasScript.Raster
import Mathlib.Order.Interval.Set.Defs

/-!
# Filled rectangles without rounding

A transform that neither turns nor shears takes a rectangle to a box along the axes. Its fill
(`fill_rect`) selects the cells whose centres lie in that box, where the lower end of either range
counts and the upper one does not, whichever corner the rectangle is drawn from. So two rectangles
that share a side share no cell, and leave none out along the side.

* `Polygon.halfOpen p q`: the places from the lower to the upper one of two ends, the upper end not
  included.
* `Polygon.mem_halfOpen`: a place is in it when it lies left of one end only, which is what the
  even-odd rule counts.
* `Polygon.inside_box`: **inside a box is what lies in both of its ranges**.
* `Polygon.separate_of_mask`: the mask of a polygon selects every cell in one span.
* `Raster.rectCells`: the cells whose centres lie in a rectangle; `Raster.rectCells_beside` and
  `Raster.rectCells_below` cut it in two.
* `Raster.fillRect_halfOpen`: **what a filled rectangle selects and how it is painted**, and that
  rectangles side by side neither overlap nor leave a gap.

Out of scope: the rounding of doubles, and frames that turn or shear.
-/

namespace CanvasScript

open Scalar
open scoped Exact

namespace Polygon

/-! ## Half-open ranges -/

section

variable {K : Type} [LinearOrder K] {p q r z : K}

/-- The places from the lower to the upper one of two ends, the upper end not included. -/
def halfOpen (p q : K) : Set K := Set.Ico (min p q) (max p q)

/-- A place is between two ends when it lies left of one of them only. -/
theorem mem_halfOpen : z ∈ halfOpen p q ↔ ¬ (z < p ↔ z < q) := by
  rw [halfOpen, Set.mem_Ico, min_le_iff, lt_max_iff, ← not_lt, ← not_lt]
  tauto

/-- **Ranges end to end make up one range.** -/
theorem mem_halfOpen_trans (p q r z : K) :
    z ∈ halfOpen p r ↔ (z ∈ halfOpen p q ↔ ¬ z ∈ halfOpen q r) := by
  rw [mem_halfOpen, mem_halfOpen, mem_halfOpen]
  tauto

end

/-- **Ranges that run on in one direction have no place in common.** -/
theorem not_mem_halfOpen_both {K : Type} [Field K] [LinearOrder K] [IsStrictOrderedRing K]
    {p q r z : K} (h : 0 ≤ (q - p) * (r - q)) : ¬ (z ∈ halfOpen p q ∧ z ∈ halfOpen q r) := by
  rw [mem_halfOpen, mem_halfOpen]
  rintro ⟨hfirst, hsecond⟩
  by_cases hz : z < q
  · have hp : p ≤ z := not_lt.mp fun hp => hfirst (iff_of_true hp hz)
    have hr : r ≤ z := not_lt.mp fun hr => hsecond (iff_of_true hz hr)
    exact absurd h (mul_neg_of_pos_of_neg (by linarith) (by linarith)).not_ge
  · have hp : z < p := by
      by_contra hp
      exact hfirst (iff_of_false hp hz)
    have hr : z < r := by
      by_contra hr
      exact hsecond (iff_of_false hz hr)
    have hq := not_lt.mp hz
    exact absurd h (mul_neg_of_neg_of_pos (by linarith) (by linarith)).not_ge

/-! ## Boxes -/

section

variable {K : Type} [Field K] [LinearOrder K] [FloorRing K] [ScalarFunctions K]

theorem cutsRight_level (x y u v p : K) : cutsRight x y (⟨u, p⟩, ⟨v, p⟩) = false := by
  simp [cutsRight, crosses]

theorem cutsRight_upright (x y u p q : K) : cutsRight x y (⟨u, p⟩, ⟨u, q⟩) =
    (decide (y < p) != decide (y < q) && decide (x < u)) := by
  have hcrossing : crossing y ((⟨u, p⟩, ⟨u, q⟩) : Point K × Point K) = u := by
    show (u - u) * (y - p) / (q - p) + u = u
    rw [sub_self, zero_mul, zero_div, zero_add]
  rw [cutsRight, hcrossing]
  rfl

/-- **Inside a box is what lies in both of its ranges.** Only its upright sides cross a row. -/
theorem inside_box (left right top bottom x y : K) :
    Inside [⟨left, top⟩, ⟨left, bottom⟩, ⟨right, bottom⟩, ⟨right, top⟩] x y ↔
      x ∈ halfOpen left right ∧ y ∈ halfOpen top bottom := by
  have hedges : edges [⟨left, top⟩, ⟨left, bottom⟩, ⟨right, bottom⟩, ⟨right, top⟩] =
      [(⟨left, top⟩, ⟨right, top⟩), (⟨left, bottom⟩, ⟨left, top⟩),
        (⟨right, bottom⟩, ⟨left, bottom⟩), (⟨right, top⟩, (⟨right, bottom⟩ : Point K))] := rfl
  rw [inside_iff, hedges, mem_halfOpen, mem_halfOpen]
  simp only [List.countP_cons, List.countP_nil, cutsRight_level, cutsRight_upright]
  by_cases ht : y < top <;> by_cases hb : y < bottom <;> by_cases hl : x < left <;>
    by_cases hr : x < right <;> simp [ht, hb, hl, hr]

end

/-! ## Cells in one span -/

section

variable {α : Type} [Scalar α]

theorem separate_between (start : Nat) : ∀ bounds, Row.Separate (between start bounds)
  | [] => Row.separate_nil
  | [_] => Row.separate_nil.select ..
  | _ :: _ :: rest => (separate_between start rest).select ..

/-- The mask of a polygon selects every cell in one span. -/
theorem separate_of_mask {width height : Nat} {points : List (Point α)} {selected : Mask}
    (h : mask width height points = .ok selected) : ∀ row ∈ selected.rows, row.Separate := by
  have hempty : ∀ row ∈ (Mask.empty height).rows, row.Separate := fun row hrow =>
    (Array.mem_replicate.mp hrow).2 ▸ Row.separate_nil
  unfold mask at h
  split at h
  · split at h
    · cases h
      exact hempty
    · obtain ⟨⟨left, right⟩, -, h⟩ := bind_eq_ok.mp h
      obtain ⟨⟨top, bottom⟩, -, h⟩ := bind_eq_ok.mp h
      by_cases hbox : (decide (right ≤ left) || decide (bottom ≤ top)) = true
      · obtain rfl := Except.ok.inj ((if_pos hbox).symm.trans h)
        exact hempty
      · obtain rfl := Except.ok.inj ((if_neg hbox).symm.trans h)
        intro row hrow
        obtain ⟨y, -, rfl⟩ := Array.mem_map.mp hrow
        split
        · exact separate_between ..
        · exact Row.separate_nil
  · cases h
    exact hempty

end

end Polygon

/-! ## Rectangles -/

namespace Raster

open CanvasScript.Polygon

variable {K : Type} [Field K] [LinearOrder K] [FloorRing K] [ScalarFunctions K]

/-- The outline of a rectangle, from the corner that it is given by along its height. -/
theorem points_rect (x y width height : Number K) :
    Figure.points (.rect x y width height) = .ok
      [⟨x.toScalar, y.toScalar⟩, ⟨x.toScalar, y.toScalar + height.toScalar⟩,
        ⟨x.toScalar + width.toScalar, y.toScalar + height.toScalar⟩,
        ⟨x.toScalar + width.toScalar, y.toScalar⟩] := by
  obtain ⟨right, hright, hright'⟩ := Exact.exists_add x width
  obtain ⟨bottom, hbottom, hbottom'⟩ := Exact.exists_add y height
  have hpoint (p q : Number K) : Figure.pointOf p q = .ok ⟨p.toScalar, q.toScalar⟩ := by
    unfold Figure.pointOf
    rw [Exact.toScalar?_eq, Exact.toScalar?_eq]
    rfl
  refine bind_eq_ok.mpr ⟨right, hright, bind_eq_ok.mpr ⟨bottom, hbottom, ?_⟩⟩
  rw [hpoint, hpoint, hpoint, hpoint, hright', hbottom']
  rfl

/-- The cells of a surface whose centres lie in a rectangle, where the transform in use takes its
sides to the axes. The lower end of either range counts, and the upper one does not. -/
def rectCells (raster : Raster K) (x y width height : K) (column row : Nat) : Prop :=
  let m := raster.frame.transform
  (column < raster.canvas.width ∧ row < raster.canvas.height) ∧
    center column ∈ halfOpen (m.a * x + m.e) (m.a * (x + width) + m.e) ∧
    center row ∈ halfOpen (m.d * y + m.f) (m.d * (y + height) + m.f)

/-- A rectangle that is cut across its width has each of its cells in just one part. -/
theorem rectCells_beside (raster : Raster K) (x y width more height : K) (column row : Nat) :
    raster.rectCells x y (width + more) height column row ↔
      (raster.rectCells x y width height column row ↔
        ¬ raster.rectCells (x + width) y more height column row) := by
  unfold rectCells
  generalize raster.frame.transform = m
  dsimp only
  rw [← add_assoc, mem_halfOpen_trans (m.a * x + m.e) (m.a * (x + width) + m.e)]
  by_cases hcell : column < raster.canvas.width ∧ row < raster.canvas.height
  · by_cases hrow : center row ∈ halfOpen (m.d * y + m.f) (m.d * (y + height) + m.f) <;>
      simp only [hcell, hrow, true_and, and_true, and_false, not_false_eq_true, iff_true]
  · simp only [hcell, false_and, not_false_eq_true, iff_true]

/-- A rectangle that is cut across its height has each of its cells in just one part. -/
theorem rectCells_below (raster : Raster K) (x y width height more : K) (column row : Nat) :
    raster.rectCells x y width (height + more) column row ↔
      (raster.rectCells x y width height column row ↔
        ¬ raster.rectCells x (y + height) width more column row) := by
  unfold rectCells
  generalize raster.frame.transform = m
  dsimp only
  rw [← add_assoc, mem_halfOpen_trans (m.d * y + m.f) (m.d * (y + height) + m.f)]
  by_cases hcell : column < raster.canvas.width ∧ row < raster.canvas.height
  · by_cases hcolumn : center column ∈ halfOpen (m.a * x + m.e) (m.a * (x + width) + m.e) <;>
      simp only [hcell, hcolumn, true_and, false_and, not_false_eq_true, iff_true]
  · simp only [hcell, false_and, not_false_eq_true, iff_true]

variable [IsStrictOrderedRing K]

/-- Parts that run on in one direction have no cell in common. -/
theorem not_rectCells_beside (raster : Raster K) (x y height : K) {width more : K}
    (h : 0 ≤ width * more) (column row : Nat) :
    ¬ (raster.rectCells x y width height column row ∧
      raster.rectCells (x + width) y more height column row) := by
  rintro ⟨⟨-, hfirst, -⟩, -, hsecond, -⟩
  refine not_mem_halfOpen_both ?_ ⟨hfirst, hsecond⟩
  calc 0 ≤ raster.frame.transform.a ^ 2 * (width * more) := mul_nonneg (sq_nonneg _) h
    _ = _ := by ring

theorem not_rectCells_below (raster : Raster K) (x y width : K) {height more : K}
    (h : 0 ≤ height * more) (column row : Nat) :
    ¬ (raster.rectCells x y width height column row ∧
      raster.rectCells x (y + height) width more column row) := by
  rintro ⟨⟨-, -, hfirst⟩, -, -, hsecond⟩
  refine not_mem_halfOpen_both ?_ ⟨hfirst, hsecond⟩
  calc 0 ≤ raster.frame.transform.d ^ 2 * (height * more) := mul_nonneg (sq_nonneg _) h
    _ = _ := by ring

variable {raster : Raster K}

/-- **A filled rectangle selects the cells whose centres lie in it**, each in one span. -/
theorem exists_mask_rect (hb : raster.frame.transform.b = 0) (hc : raster.frame.transform.c = 0)
    (x y width height lineWidth : Number K) :
    ∃ mask, maskOf raster.canvas.width raster.canvas.height raster.frame.transform
        (.figure .fill (.rect x y width height)) lineWidth = .ok mask ∧
      mask.Separate raster.canvas.width ∧
      ∀ column row, mask.contains column row = true ↔
        raster.rectCells x.toScalar y.toScalar width.toScalar height.toScalar column row := by
  generalize hm : raster.frame.transform = m at hb hc
  have happly (p q : K) : m.apply ⟨p, q⟩ = ⟨m.a * p + m.e, m.d * q + m.f⟩ := by
    unfold Affine.apply
    rw [hb, hc, zero_mul, zero_mul, add_zero, zero_add]
  obtain ⟨mask, hmask, -, hcontains⟩ := exists_cells raster.canvas.width raster.canvas.height
    [(⟨m.a * x.toScalar + m.e, m.d * y.toScalar + m.f⟩ : Point K),
      ⟨m.a * x.toScalar + m.e, m.d * (y.toScalar + height.toScalar) + m.f⟩,
      ⟨m.a * (x.toScalar + width.toScalar) + m.e, m.d * (y.toScalar + height.toScalar) + m.f⟩,
      ⟨m.a * (x.toScalar + width.toScalar) + m.e, m.d * y.toScalar + m.f⟩]
  refine ⟨mask, ?_, fun row hrow => ⟨separate_of_mask hmask row hrow, fun column hcolumn => ?_⟩,
    fun column row => ?_⟩
  · refine bind_eq_ok.mpr ⟨_, points_rect x y width height, ?_⟩
    simpa only [List.map_cons, List.map_nil, happly] using hmask
  · obtain ⟨n, hn, rfl⟩ := Array.mem_iff_getElem.mp hrow
    refine ((hcontains column n).mp ?_).1.1
    rwa [Mask.contains, Array.getD_eq_getD_getElem?, Array.getElem?_eq_getElem hn]
  · rw [hcontains, inside_box, rectCells, hm]

/-- **A filled rectangle is half-open.** Where the transform in use takes its sides to the axes, it
selects the cells whose centres lie in it, lower ends included and upper ones not. The colour is
laid once over each of them, which an opaque colour replaces, and no other cell changes. So two
rectangles side by side neither paint a cell twice nor leave one out. -/
theorem fillRect_halfOpen (hcanvas : raster.canvas.Sound) (hb : raster.frame.transform.b = 0)
    (hc : raster.frame.transform.c = 0) (x y width height lineWidth : Number K) (color : Rgba) :
    let cells := raster.rectCells x.toScalar y.toScalar width.toScalar height.toScalar
    (∃ mask, maskOf raster.canvas.width raster.canvas.height raster.frame.transform
        (.figure .fill (.rect x y width height)) lineWidth = .ok mask ∧
      ∀ column row, mask.contains column row = true ↔ cells column row) ∧
    (∃ painted : Canvas, raster.paint (.figure .fill (.rect x y width height)) lineWidth color =
        (.ok (), { raster with canvas := painted }) ∧
      painted.width = raster.canvas.width ∧ painted.height = raster.canvas.height ∧
      (color.InRange → painted.Sound) ∧
      ∀ column < raster.canvas.width, ∀ row < raster.canvas.height,
        (¬ cells column row → painted.pixel column row = raster.canvas.pixel column row) ∧
        (cells column row → color.alpha ≠ 0 →
          painted.pixel column row = color.blend (raster.canvas.pixel column row)) ∧
        (cells column row → color.InRange → color.alpha = 255 →
          painted.pixel column row = color)) ∧
    (∀ (more : K) (column row : Nat),
      (raster.rectCells x.toScalar y.toScalar (width.toScalar + more) height.toScalar column row ↔
        (cells column row ↔ ¬ raster.rectCells (x.toScalar + width.toScalar) y.toScalar more
          height.toScalar column row)) ∧
      (0 ≤ width.toScalar * more → ¬ (cells column row ∧ raster.rectCells
        (x.toScalar + width.toScalar) y.toScalar more height.toScalar column row))) ∧
    ∀ (more : K) (column row : Nat),
      (raster.rectCells x.toScalar y.toScalar width.toScalar (height.toScalar + more) column row ↔
        (cells column row ↔ ¬ raster.rectCells x.toScalar (y.toScalar + height.toScalar)
          width.toScalar more column row)) ∧
      (0 ≤ height.toScalar * more → ¬ (cells column row ∧ raster.rectCells
        x.toScalar (y.toScalar + height.toScalar) width.toScalar more column row)) := by
  obtain ⟨mask, hmask, hseparate, hcontains⟩ := exists_mask_rect hb hc x y width height lineWidth
  refine ⟨⟨mask, hmask, hcontains⟩, ⟨raster.canvas.paint mask color, ?_, ?_, ?_, hcanvas.paint mask,
    fun column hcolumn row hrow => ?_⟩, fun more column row =>
      ⟨rectCells_beside .., fun h => not_rectCells_beside _ _ _ _ h column row⟩,
    fun more column row => ⟨rectCells_below .., fun h => not_rectCells_below _ _ _ _ h column row⟩⟩
  · unfold paint
    rw [hmask]
  · unfold Canvas.paint
    split <;> rfl
  · unfold Canvas.paint
    split <;> rfl
  · rw [Canvas.pixel_paint hcanvas hseparate color hcolumn hrow]
    refine ⟨fun hnot => if_neg fun h => hnot ((hcontains column row).mp h.1),
      fun hcell halpha => if_pos ⟨(hcontains column row).mpr hcell, halpha⟩,
      fun hcell hrange hfull => ?_⟩
    have halpha : color.alpha ≠ 0 := by
      rw [hfull]
      decide
    rw [if_pos ⟨(hcontains column row).mpr hcell, halpha⟩]
    exact Rgba.blend_opaque hrange hfull (hcanvas.alpha_getD _)

/-- A white surface of four by four cells, whose frame runs from right to left. -/
def mirrored : Raster Rat := start 4 4 Rgba.white ⟨-1, 0, 0, 1, 4, 0⟩

/-- A rectangle drawn upwards from the centres of one row to those of the row above, which alone is
painted. -/
theorem fillRect_halfOpen_mirrored :
    mirrored.rectCells 1 (3 / 2) 2 (-1) 2 0 ∧ ¬ mirrored.rectCells 1 (3 / 2) 2 (-1) 2 1 ∧
      ¬ mirrored.rectCells 1 (3 / 2) 2 (-1) 3 0 ∧
      ∃ painted : Canvas, mirrored.paint (.figure .fill (.rect (.int 1) (.real (3 / 2)) (.int 2)
          (.int (-1)))) (.int 1) ⟨200, 30, 40, 255⟩ =
            (.ok (), { mirrored with canvas := painted }) ∧
        painted.pixel 2 0 = ⟨200, 30, 40, 255⟩ ∧
        painted.pixel 2 1 = Rgba.white ∧ painted.pixel 3 0 = Rgba.white := by
  have hrange : (⟨200, 30, 40, 255⟩ : Rgba).InRange := by constructor <;> decide
  have hcell : mirrored.rectCells 1 (3 / 2) 2 (-1) 2 0 := by
    refine ⟨⟨by decide, by decide⟩, ?_, ?_⟩ <;> rw [mem_halfOpen] <;> decide +kernel
  have hbelow : ¬ mirrored.rectCells 1 (3 / 2) 2 (-1) 2 1 := fun h => by
    have := mem_halfOpen.mp h.2.2
    revert this
    decide +kernel
  have hright : ¬ mirrored.rectCells 1 (3 / 2) 2 (-1) 3 0 := fun h => by
    have := mem_halfOpen.mp h.2.1
    revert this
    decide +kernel
  have hcanvas : mirrored.canvas.Sound := Canvas.sound_plain 4 4 (by constructor <;> decide)
  obtain ⟨-, ⟨painted, hpaint, -, -, -, hpixels⟩, -, -⟩ := fillRect_halfOpen hcanvas rfl rfl
    (.int 1) (.real (3 / 2)) (.int 2) (.int (-1)) (.int 1) ⟨200, 30, 40, 255⟩
  refine ⟨hcell, hbelow, hright, painted, hpaint, ?_, ?_, ?_⟩
  · exact (hpixels 2 (by decide) 0 (by decide)).2.2 hcell hrange rfl
  · exact (hpixels 2 (by decide) 1 (by decide)).1 hbelow
  · exact (hpixels 3 (by decide) 0 (by decide)).1 hright

end Raster

end CanvasScript
