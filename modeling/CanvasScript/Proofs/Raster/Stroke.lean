import CanvasScript.Proofs.Raster.Clip
import CanvasScript.Proofs.Raster.Walk

/-!
# Stroked segments

A segment is clipped to the canvas and what its line may reach beyond, and then walked cell by cell
(`_stamp_segment`). About each cell a square is selected, as far as it lies on the canvas.

* `Mask.contains_stamp`: **a stamp selects the cells of the canvas near one cell**, and nothing else
  changes.
* `Stroke.walked_short`: what is walked for a segment is short.
* `Stroke.segment_walked`: **a segment selects the cells near its walk**, however far its ends lie
  from the canvas.

Out of scope: the rounding of doubles in the clipping. The walk itself is one of integers.
-/

namespace CanvasScript

/-- A cell of a canvas lies in the square about another one. -/
def Cell.Near (cell : Cell) (radius : Nat) (x y : Nat) : Prop :=
  |(x : Int) - cell.x| ≤ radius ∧ |(y : Int) - cell.y| ≤ radius

namespace Mask

variable (mask : Mask) (x y : Nat)

theorem contains_selectIn (row start stop : Nat) :
    (mask.selectIn row start stop).contains x y = true ↔ mask.contains x y = true ∨
      y = row ∧ y < mask.rows.size ∧ start ≤ x ∧ x < stop := by
  unfold contains selectIn
  simp only [Array.getD_eq_getD_getElem?, Array.getElem?_modify]
  by_cases hrow : row = y
  · subst hrow
    by_cases hsize : row < mask.rows.size
    · simp [hsize, Row.contains_select, or_comm]
    · simp [hsize]
  · simp [hrow, Ne.symm hrow]

@[simp] theorem size_selectIn (row start stop : Nat) :
    (mask.selectIn row start stop).rows.size = mask.rows.size := by
  simp [selectIn]

theorem contains_selectBlock (left right top count : Nat) :
    (selectBlock left right top count mask).contains x y = true ↔ mask.contains x y = true ∨
      (top ≤ y ∧ y < top + count) ∧ y < mask.rows.size ∧ left ≤ x ∧ x < right := by
  induction count generalizing top mask with
  | zero =>
    rw [selectBlock]
    exact ⟨.inl, fun h => h.elim id fun h => absurd h.1 (by omega)⟩
  | succ count ih =>
    have hrows : top ≤ y ∧ y < top + (count + 1) ↔
        y = top ∨ top + 1 ≤ y ∧ y < top + 1 + count := by omega
    rw [selectBlock, ih, contains_selectIn, size_selectIn, hrows]
    tauto

@[simp] theorem size_selectBlock (left right top count : Nat) :
    (selectBlock left right top count mask).rows.size = mask.rows.size := by
  induction count generalizing top mask with
  | zero => rfl
  | succ count ih => rw [selectBlock, ih, size_selectIn]

/-- **A stamp selects the cells of the canvas near one cell**, and nothing else changes. -/
theorem contains_stamp (width height radius : Nat) (cell : Cell) :
    (mask.stamp width height radius cell.x cell.y).contains x y = true ↔
      mask.contains x y = true ∨
        (x < width ∧ y < height ∧ y < mask.rows.size) ∧ cell.Near radius x y := by
  unfold stamp Cell.Near
  rw [contains_selectBlock, abs_le, abs_le]
  refine or_congr_right ?_
  omega

@[simp] theorem size_stamp (width height radius : Nat) (cell : Cell) :
    (mask.stamp width height radius cell.x cell.y).rows.size = mask.rows.size :=
  size_selectBlock _ _ _ _ _

theorem size_stamps (width height radius : Nat) (cells : List Cell) :
    (cells.foldl (fun mask cell => mask.stamp width height radius cell.x cell.y) mask).rows.size =
      mask.rows.size := by
  induction cells generalizing mask with
  | nil => rfl
  | cons cell rest ih => rw [List.foldl_cons, ih, size_stamp]

/-- Stamps one after another select what each of them does. -/
theorem contains_stamps (width height radius : Nat) (cells : List Cell) :
    (cells.foldl (fun mask cell => mask.stamp width height radius cell.x cell.y) mask).contains
        x y = true ↔
      mask.contains x y = true ∨
        (x < width ∧ y < height ∧ y < mask.rows.size) ∧ ∃ cell ∈ cells, cell.Near radius x y := by
  induction cells generalizing mask with
  | nil => simp
  | cons cell rest ih =>
    rw [List.foldl_cons, ih, contains_stamp, size_stamp, List.exists_mem_cons_iff]
    tauto

end Mask

open Scalar
open scoped Exact

variable {K : Type} [Field K] [LinearOrder K] [FloorRing K]

/-- The cell in which a point lies. -/
def Point.cell (p : Point K) : Cell := ⟨⌊p.x⌋, ⌊p.y⌋⟩

namespace Stroke

/-- The corner of what lines near a canvas may reach, left of it and above. -/
def lowCorner (radius : Nat) : Point K := ⟨-radius - 1, -radius - 1⟩

/-- The corner of what lines near a canvas may reach, right of it and below. -/
def highCorner (width height radius : Nat) : Point K := ⟨width + radius + 1, height + radius + 1⟩

variable [ScalarFunctions K]

/-- The cells that are walked for a segment near a canvas. -/
def walked (width height radius : Nat) (s : Segment K) : List Cell :=
  match s.clip? (lowCorner radius) (highCorner width height radius) with
  | none => []
  | some part => Cell.line part.start.cell part.finish.cell

variable (width height : Nat) (lineWidth : Int) (s : Segment K) (mask : Mask)

theorem segment_eq :
    segment width height lineWidth s mask =
      .ok ((walked width height (radius lineWidth) s).foldl
        (fun mask cell => mask.stamp width height (radius lineWidth) cell.x cell.y) mask) := by
  have hlow : (⟨-ofInt (radius lineWidth) - one, -ofInt (radius lineWidth) - one⟩ : Point K) =
      lowCorner (radius lineWidth) := by
    simp [lowCorner]
  have hhigh : (⟨ofInt ((width + radius lineWidth : Nat) : Int) + one,
      ofInt ((height + radius lineWidth : Nat) : Int) + one⟩ : Point K) =
      highCorner width height (radius lineWidth) := by
    simp [highCorner]
  unfold segment walked
  simp only [hlow, hhigh]
  cases s.clip? (lowCorner (radius lineWidth)) (highCorner width height (radius lineWidth)) with
  | none => rfl
  | some part => rfl

variable [IsStrictOrderedRing K]

variable {width height}

omit [ScalarFunctions K] in
/-- What lines near a canvas may reach, in cells. -/
theorem cell_mem {r : Nat} {p : Point K}
    (h : (lowCorner r).Between (highCorner width height r) p) :
    (-(r : Int) - 1 ≤ p.cell.x ∧ p.cell.x ≤ width + r + 1) ∧
      (-(r : Int) - 1 ≤ p.cell.y ∧ p.cell.y ≤ height + r + 1) := by
  obtain ⟨hleft, hright, htop, hbottom⟩ := h
  simp only [lowCorner, highCorner] at hleft hright htop hbottom
  refine ⟨⟨Int.le_floor.mpr ?_, ?_⟩, ⟨Int.le_floor.mpr ?_, ?_⟩⟩
  · push_cast
    exact hleft
  · exact_mod_cast (Int.floor_le p.x).trans hright
  · push_cast
    exact htop
  · exact_mod_cast (Int.floor_le p.y).trans hbottom

/-- **What is walked for a segment is short**, however far its ends lie from the canvas. -/
theorem walked_short (r : Nat) :
    walked width height r s = [] ∨
      ∃ start finish, walked width height r s = Cell.line start finish ∧
        Cell.distance start finish ≤ max width height + 2 * r + 2 := by
  unfold walked
  cases hclip : s.clip? (lowCorner r) (highCorner width height r) with
  | none => exact .inl rfl
  | some part =>
    right
    refine ⟨part.start.cell, part.finish.cell, rfl, ?_⟩
    have hpart := Segment.isPartIn_of_clip? hclip
    have hstart := cell_mem hpart.start
    have hfinish := cell_mem hpart.finish
    unfold Cell.distance
    omega

variable (width height)

/-- **Every loop of a stroke ends and follows its line.** Between any two cells it takes as many
rounds as they are apart. For a segment that is little more than the size of the canvas, and the
cells of the canvas near the way are selected, and no others. -/
theorem segment_walked :
    (∀ start finish,
      Cell.GoesStraight start finish (fun i => (Cell.course start finish i).1)
        (Cell.distance start finish) ∧
      Cell.line start finish =
        (List.range (Cell.distance start finish + 1)).map
          fun i => (Cell.course start finish i).1) ∧
    (walked width height (radius lineWidth) s = [] ∨
      ∃ start finish, walked width height (radius lineWidth) s = Cell.line start finish ∧
        Cell.distance start finish ≤ max width height + 2 * radius lineWidth + 2) ∧
    ∃ after, segment width height lineWidth s mask = .ok after ∧
      after.rows.size = mask.rows.size ∧
      ∀ x y, after.contains x y = true ↔ mask.contains x y = true ∨
        (x < width ∧ y < height ∧ y < mask.rows.size) ∧
          ∃ cell ∈ walked width height (radius lineWidth) s, cell.Near (radius lineWidth) x y := by
  refine ⟨fun start finish => ⟨Cell.goesStraight start finish, Cell.line_eq_course start finish⟩,
    walked_short s _, _, segment_eq width height lineWidth s mask, Mask.size_stamps .., ?_⟩
  intro x y
  exact Mask.contains_stamps mask x y width height _ _

/-- A segment with far ends, which crosses a small canvas. -/
def farSegment : Segment Rat := ⟨⟨-10 ^ 30, 1⟩, ⟨10 ^ 30, 2⟩⟩

theorem segment_walked_far :
    walked 4 3 1 farSegment = Cell.line ⟨-2, 1⟩ ⟨6, 1⟩ ∧
      Cell.GoesStraight ⟨-2, 1⟩ ⟨6, 1⟩ (fun i => (Cell.course ⟨-2, 1⟩ ⟨6, 1⟩ i).1) 8 ∧
      (∃ start finish, walked 4 3 1 farSegment = Cell.line start finish ∧
        Cell.distance start finish ≤ max 4 3 + 2 * 1 + 2) ∧
      ∃ after, segment 4 3 2 farSegment (Mask.empty 3) = .ok after ∧ after.rows.size = 3 ∧
        ∀ x y, after.contains x y = true ↔ (Mask.empty 3).contains x y = true ∨
          (x < 4 ∧ y < 3 ∧ y < 3) ∧
            ∃ cell ∈ Cell.line ⟨-2, 1⟩ ⟨6, 1⟩, cell.Near 1 x y := by
  have hwalked : walked 4 3 1 farSegment = Cell.line ⟨-2, 1⟩ ⟨6, 1⟩ := by decide +kernel
  have hsome : walked 4 3 1 farSegment ≠ [] := by
    rw [hwalked]
    decide
  obtain ⟨hlines, hshort, after, hafter, hsize, hcontains⟩ :=
    segment_walked 4 3 2 farSegment (Mask.empty 3)
  refine ⟨hwalked, (hlines _ _).1, hshort.resolve_left hsome, after, hafter, hsize, ?_⟩
  rw [← hwalked]
  exact hcontains

end Stroke

end CanvasScript
