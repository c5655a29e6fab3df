import CanvasScript.Proofs.Color
import CanvasScript.Raster.Canvas

/-!
# Painting

A mask is painted span by span, and each span cell by cell (`blend_mask`). Where no cell belongs to
two spans, a cell of the canvas is painted once if it is selected, and not at all otherwise.

* `Row.Separate`: the spans of a row have cells, and a gap lies between any two. `Row.add` keeps
  them so.
* `Canvas.Sound`: a canvas has as many colours as cells, and none of them covers more than all.
  Canvases start so, and painting keeps them so.
* `Canvas.pixel_paint`: **painting lays the colour once over every selected cell**, and changes no
  other one.
* `Rgba.blend_opaque`: **an opaque colour replaces what is beneath it**.
-/

namespace CanvasScript

/-! ## Separate spans -/

namespace Row

/-- The spans of a row have cells, and a gap lies between any two. -/
structure Separate (row : Row) : Prop where
  proper : ∀ span ∈ row, span.start < span.stop
  apart : row.Pairwise fun a b => a.stop < b.start

theorem separate_nil : Separate [] := ⟨nofun, .nil⟩

theorem separate_cons {span : Span} {row : Row} :
    Separate (span :: row) ↔
      span.start < span.stop ∧ (∀ b ∈ row, span.stop < b.start) ∧ Separate row := by
  constructor
  · rintro ⟨hproper, hapart⟩
    obtain ⟨hspan, hrow⟩ := List.forall_mem_cons.mp hproper
    obtain ⟨hfirst, hrest⟩ := List.pairwise_cons.mp hapart
    exact ⟨hspan, hfirst, hrow, hrest⟩
  · rintro ⟨hspan, hfirst, hrow, hrest⟩
    exact ⟨List.forall_mem_cons.mpr ⟨hspan, hrow⟩, List.pairwise_cons.mpr ⟨hfirst, hrest⟩⟩

/-- No span starts earlier for a span that is added behind a cell. -/
theorem lt_start_add {n : Nat} (span : Span) (row : Row) (hspan : n < span.start)
    (hrow : ∀ b ∈ row, n < b.start) : ∀ b ∈ add span row, n < b.start := by
  induction row generalizing span with
  | nil => exact List.forall_mem_singleton.mpr hspan
  | cons first rest ih =>
    obtain ⟨hfirst, hrest⟩ := List.forall_mem_cons.mp hrow
    unfold add
    split
    · exact List.forall_mem_cons.mpr ⟨hspan, hrow⟩
    · split
      · exact List.forall_mem_cons.mpr ⟨hfirst, ih span hspan hrest⟩
      · exact ih _ (Nat.lt_min.mpr ⟨hspan, hfirst⟩) hrest

/-- **A row stays separate when a span is added.** -/
theorem Separate.add {row : Row} (h : Separate row) {span : Span} (hspan : span.start < span.stop) :
    Separate (Row.add span row) := by
  induction row generalizing span with
  | nil => exact separate_cons.mpr ⟨hspan, nofun, separate_nil⟩
  | cons first rest ih =>
    obtain ⟨hfirst, hgap, hrest⟩ := separate_cons.mp h
    unfold Row.add
    split
    · rename_i hbefore
      refine separate_cons.mpr ⟨hspan, ?_, h⟩
      exact List.forall_mem_cons.mpr ⟨hbefore, fun b hb => by have := hgap b hb; omega⟩
    · split
      · rename_i hbehind
        exact separate_cons.mpr ⟨hfirst, lt_start_add span rest hbehind hgap, ih hrest hspan⟩
      · -- the spans meet and become one, which may meet further ones
        refine ih hrest ?_
        show min span.start first.start < max span.stop first.stop
        omega

theorem Separate.select {row : Row} (h : Separate row) (start stop : Nat) :
    Separate (Row.select start stop row) := by
  unfold Row.select
  split
  · rename_i hlt
    exact h.add hlt
  · exact h

/-- A cell of a span that stands before others is in none of them. -/
theorem contains_eq_false_of_lt {row : Row} {n x : Nat} (h : ∀ b ∈ row, n < b.start) (hx : x ≤ n) :
    contains row x = false := by
  refine List.any_eq_false.mpr fun b hb => ?_
  have := h b hb
  simp only [Span.contains, Bool.and_eq_true, decide_eq_true_eq]
  omega

end Row

/-! ## One colour over another -/

namespace Rgba

open Rounding

theorem blendChannel_one {top : Int} (h : 0 ≤ top ∧ top ≤ 255) (below : Int) :
    blendChannel 1 top below = top := by
  obtain ⟨n, rfl⟩ := Int.eq_ofNat_of_zero_le h.1
  have hone : nearest 24 ((1 : Nat) : Rat) = (1 : Nat) := nearest_natCast (by decide)
  have htop : nearest 24 ((n : Int) : Rat) = (n : Int) := by
    rw [Int.cast_natCast]
    exact nearest_natCast (by omega)
  unfold blendChannel
  rw [Nat.cast_one] at hone
  rw [sub_self, nearest_zero, nearest_zero, mul_zero, nearest_zero, hone, mul_one, htop, add_zero,
    htop, halfEven_intCast]

/-- **An opaque colour replaces what is beneath it.** -/
theorem blend_opaque {top below : Rgba} (htop : top.InRange) (hfull : top.alpha = 255)
    (hbelow : below.alpha ≤ 255) : blend top below = top := by
  have hshare : share top.alpha = 1 := by
    rw [hfull]
    decide +kernel
  have halpha : max below.alpha top.alpha = top.alpha := max_eq_right (hfull ▸ hbelow)
  unfold blend
  simp only [hshare, halpha, blendChannel_one htop.red, blendChannel_one htop.green,
    blendChannel_one htop.blue]

end Rgba

/-! ## Cells of a canvas -/

namespace Canvas

variable {color : Rgba}

/-- The colours of some cells, of which those that `selected` tells have been painted once. -/
def Painted (color : Rgba) (selected : Nat → Bool) (before after : Array Rgba) : Prop :=
  after.size = before.size ∧ ∀ place < before.size, after.getD place Rgba.clear =
    if selected place then color.blend (before.getD place Rgba.clear)
    else before.getD place Rgba.clear

namespace Painted

variable {selected selected' : Nat → Bool} {before between after : Array Rgba}

theorem nothing (before : Array Rgba) : Painted color (fun _ => false) before before :=
  ⟨rfl, fun _ _ => rfl⟩

theorem congr (h : Painted color selected before after)
    (hselected : ∀ place < before.size, selected place = selected' place) :
    Painted color selected' before after :=
  ⟨h.1, fun place hplace => by rw [h.2 place hplace, hselected place hplace]⟩

/-- **What is painted one after another is painted once**, where no cell is selected twice. -/
theorem trans (h : Painted color selected before between)
    (h' : Painted color selected' between after)
    (hapart : ∀ place < before.size, selected place = true → selected' place = false) :
    Painted color (fun place => selected place || selected' place) before after := by
  refine ⟨h'.1.trans h.1, fun place hplace => ?_⟩
  rw [h'.2 place (h.1 ▸ hplace), h.2 place hplace]
  have hnot := hapart place hplace
  cases hfirst : selected place with
  | false => simp [hfirst]
  | true => simp [hfirst, hnot hfirst]

end Painted

theorem painted_set (pixels : Array Rgba) (place : Nat) :
    Painted color (fun p => p == place) pixels
      (pixels.setIfInBounds place (color.blend (pixels.getD place Rgba.clear))) := by
  refine ⟨Array.size_setIfInBounds .., fun p hp => ?_⟩
  by_cases h : p = place
  · subst h
    simp [hp]
  · simp [hp, h, Ne.symm h]

/-- Cells in turn are painted once. -/
theorem painted_paintCells (count place : Nat) (blended : Rgba.Blended color)
    (pixels : Array Rgba) :
    Painted color (fun p => decide (place ≤ p) && decide (p < place + count)) pixels
      (paintCells count place blended pixels).1 := by
  induction count generalizing place blended pixels with
  | zero =>
    refine (Painted.nothing pixels).congr fun p _ => ?_
    simp
  | succ count ih =>
    rw [paintCells]
    dsimp only
    rw [Rgba.Blended.next_result]
    refine ((painted_set pixels place).trans (ih ..) fun p _ hp => ?_).congr fun p _ => ?_
    · have := eq_of_beq hp
      simp
      omega
    · rw [Bool.eq_iff_iff]
      simp
      omega

/-- The cells of a row with separate spans are painted once. -/
theorem painted_paintRow (place : Nat) {row : Row} (h : row.Separate)
    (blended : Rgba.Blended color) (pixels : Array Rgba) :
    Painted color (fun p => decide (place ≤ p) && row.contains (p - place)) pixels
      (paintRow place row blended pixels).1 := by
  induction row generalizing blended pixels with
  | nil =>
    refine (Painted.nothing pixels).congr fun p _ => ?_
    simp [Row.contains]
  | cons span rest ih =>
    obtain ⟨hspan, hgap, hrest⟩ := Row.separate_cons.mp h
    rw [paintRow]
    refine ((painted_paintCells _ _ blended pixels).trans (ih hrest ..) fun p _ hp => ?_).congr
      fun p _ => ?_
    · have hbefore : p - place ≤ span.stop := by
        simp at hp
        omega
      rw [Row.contains_eq_false_of_lt hgap hbefore, Bool.and_false]
    · rw [Row.contains_cons, Span.contains]
      cases Row.contains rest (p - place) <;>
      · rw [Bool.eq_iff_iff]
        simp
        omega

/-- Rows one behind another are painted once, where none reaches into the next one. -/
theorem painted_paintRows {width : Nat} (hpos : 0 < width) (place : Nat) {rows : List Row}
    (h : ∀ row ∈ rows, row.Separate ∧ ∀ x, row.contains x = true → x < width)
    (blended : Rgba.Blended color) (pixels : Array Rgba) :
    Painted color (fun p => decide (place ≤ p) &&
        (rows.getD ((p - place) / width) []).contains ((p - place) % width)) pixels
      (paintRows width place rows blended pixels) := by
  induction rows generalizing place blended pixels with
  | nil =>
    refine (Painted.nothing pixels).congr fun p _ => ?_
    simp [Row.contains]
  | cons row rest ih =>
    obtain ⟨⟨hrow, hwidth⟩, hrest⟩ := List.forall_mem_cons.mp h
    rw [paintRows]
    refine ((painted_paintRow place hrow blended pixels).trans (ih (place + width) hrest ..)
      fun p _ hp => ?_).congr fun p _ => ?_
    · have := hwidth _ (Bool.and_eq_true _ _ ▸ hp).2
      simp
      omega
    · by_cases hfirst : p < place + width
      · have hsmall : p - place < width := by omega
        rw [Nat.div_eq_of_lt hsmall, Nat.mod_eq_of_lt hsmall, List.getD_cons_zero]
        simp [Nat.not_le.mpr hfirst]
      · -- the cell lies in a later row
        obtain ⟨q, rfl⟩ : ∃ q, p = place + width + q := ⟨p - (place + width), by omega⟩
        have hoffset : place + width + q - place = q + width := by omega
        have hrow : row.contains (q + width) = false :=
          Bool.eq_false_iff.mpr fun hmem => by have := hwidth _ hmem; omega
        rw [hoffset, hrow, Nat.add_div_right _ hpos, Nat.add_mod_right, List.getD_cons_succ,
          Nat.add_sub_cancel_left]
        simp [Nat.add_assoc]

/-- What a single cell keeps when it is painted, painting keeps. -/
theorem paintRows_keeps {kept : Array Rgba → Prop}
    (h : ∀ place pixels, kept pixels →
      kept (pixels.setIfInBounds place (color.blend (pixels.getD place Rgba.clear))))
    (width place : Nat) (rows : List Row) (blended : Rgba.Blended color) {pixels : Array Rgba}
    (hpixels : kept pixels) : kept (paintRows width place rows blended pixels) := by
  have hcells : ∀ (count place : Nat) (blended : Rgba.Blended color) (pixels : Array Rgba),
      kept pixels → kept (paintCells count place blended pixels).1 := by
    intro count
    induction count with
    | zero => exact fun _ _ _ hpixels => hpixels
    | succ count ih =>
      intro place blended pixels hpixels
      rw [paintCells]
      dsimp only
      rw [Rgba.Blended.next_result]
      exact ih _ _ _ (h place pixels hpixels)
  have hrow : ∀ (row : Row) (place : Nat) (blended : Rgba.Blended color) (pixels : Array Rgba),
      kept pixels → kept (paintRow place row blended pixels).1 := by
    intro row
    induction row with
    | nil => exact fun _ _ _ hpixels => hpixels
    | cons span rest ih => exact fun _ _ _ hpixels => ih _ _ _ (hcells _ _ _ _ hpixels)
  induction rows generalizing place blended pixels with
  | nil => exact hpixels
  | cons row rest ih => exact ih _ _ (hrow _ _ _ _ hpixels)

/-! ## Whole canvases -/

/-- A canvas has a colour for every cell, and none of them covers more than all. -/
structure Sound (canvas : Canvas) : Prop where
  size : canvas.pixels.size = canvas.width * canvas.height
  cover : ∀ c ∈ canvas.pixels, c.alpha ≤ 255

theorem sound_plain (width height : Nat) {color : Rgba} (h : color.InRange) :
    (plain width height color).Sound where
  size := Array.size_replicate
  cover c hc := by
    rw [(Array.mem_replicate.mp hc).2]
    exact h.alpha.2

theorem Sound.alpha_getD {canvas : Canvas} (h : canvas.Sound) (place : Nat) :
    (canvas.pixels.getD place Rgba.clear).alpha ≤ 255 := by
  unfold Array.getD
  split
  · exact h.cover _ (Array.getElem_mem _)
  · decide

/-- **Painting keeps a canvas sound**, whatever the mask is. -/
theorem Sound.paint {canvas : Canvas} (h : canvas.Sound) (mask : Mask) {color : Rgba}
    (hcolor : color.InRange) : (canvas.paint mask color).Sound := by
  unfold Canvas.paint
  split
  · exact h
  · let kept (pixels : Array Rgba) : Prop := Sound { canvas with pixels }
    suffices hkept : kept (paintRows canvas.width 0 mask.rows.toList (.fresh : Rgba.Blended color)
        canvas.pixels) from hkept
    refine paintRows_keeps (fun place pixels (hpixels : kept pixels) => ?_) _ _ _ _ h
    refine ⟨(Array.size_setIfInBounds ..).trans hpixels.size, fun c hc => ?_⟩
    rcases Array.mem_or_eq_of_mem_setIfInBounds hc with hmem | rfl
    · exact hpixels.cover c hmem
    · exact max_le (hpixels.alpha_getD place) hcolor.alpha.2

end Canvas

/-- A mask selects cells of columns up to a width, and each of them in one span. -/
def Mask.Separate (width : Nat) (mask : Mask) : Prop :=
  ∀ row ∈ mask.rows, row.Separate ∧ ∀ x, row.contains x = true → x < width

namespace Canvas

/-- **Painting lays the colour once over every selected cell**, and changes no other one. -/
theorem pixel_paint {canvas : Canvas} {mask : Mask} (h : canvas.Sound)
    (hmask : mask.Separate canvas.width) (color : Rgba) {x y : Nat} (hx : x < canvas.width)
    (hy : y < canvas.height) :
    (canvas.paint mask color).pixel x y =
      if mask.contains x y = true ∧ color.alpha ≠ 0 then color.blend (canvas.pixel x y)
      else canvas.pixel x y := by
  unfold paint
  by_cases halpha : color.alpha = 0
  · simp [halpha]
  · have hplace : y * canvas.width + x < canvas.pixels.size := by
      calc y * canvas.width + x < y * canvas.width + canvas.width := Nat.add_lt_add_left hx _
        _ = (y + 1) * canvas.width := (Nat.succ_mul _ _).symm
        _ ≤ canvas.height * canvas.width := Nat.mul_le_mul_right _ hy
        _ = canvas.pixels.size := by rw [h.size, Nat.mul_comm]
    have hrow : (y * canvas.width + x) / canvas.width = y := by
      rw [Nat.mul_comm, Nat.mul_add_div (Nat.zero_lt_of_lt hx), Nat.div_eq_of_lt hx, Nat.add_zero]
    have hcolumn : (y * canvas.width + x) % canvas.width = x := by
      rw [Nat.mul_comm, Nat.mul_add_mod, Nat.mod_eq_of_lt hx]
    have hcontains : mask.contains x y = (mask.rows.toList.getD y []).contains x := by
      rw [Mask.contains, Array.getD_eq_getD_getElem?, List.getD_eq_getElem?_getD,
        Array.getElem?_toList]
    have hrows : ∀ row ∈ mask.rows.toList,
        row.Separate ∧ ∀ x, row.contains x = true → x < canvas.width :=
      fun row hrow => hmask row (Array.mem_toList_iff.mp hrow)
    have hpainted := (painted_paintRows (Nat.zero_lt_of_lt hx) 0 hrows (.fresh : Rgba.Blended color)
      canvas.pixels).2 _ hplace
    simp only [Nat.sub_zero, hrow, hcolumn, ← hcontains, Nat.zero_le, decide_true,
      Bool.true_and] at hpainted
    rw [if_neg halpha]
    simp only [halpha, ne_eq, not_false_eq_true, and_true]
    exact hpainted

end Canvas

end CanvasScript
