import CanvasScript.Color.Basic

/-!
# Blending

A colour is laid over the one beneath it by the weight of its alpha channel. Weights are computed to
53 significant binary digits and everything else to 24, each time to the nearest; the sum is rounded
to the nearest integer. The alpha channel becomes the greater of the two.

Model of the arithmetic of `blend_mask`, which multiplies in singles by weights that are computed in
doubles.

* `Blended` remembers some blends of a colour, since a shape often lies over few colours.
  `Blended.next_result` says that it does not change what comes of them.

Out of scope: channels beyond `255`, which an array of bytes wraps round. No style denotes one
(`Rgba.inRange_ofStyle`).
-/

namespace CanvasScript.Rgba

open Rounding

/-- The share of an alpha channel. -/
def share (alpha : Int) : Rat := nearest 53 (mkRat alpha 255)

/-- A channel laid over another with a share. -/
def blendChannel (share : Rat) (top below : Int) : Int :=
  halfEven (nearest 24
    (nearest 24 (top * nearest 24 share) +
      nearest 24 (below * nearest 24 (nearest 53 (1 - share)))))

/-- A colour laid over another. -/
def blend (top below : Rgba) : Rgba :=
  let share := share top.alpha
  { red := blendChannel share top.red below.red
    green := blendChannel share top.green below.green
    blue := blendChannel share top.blue below.blue
    alpha := max below.alpha top.alpha }

/-- Some colours over which `top` has been laid, each with what came of it. -/
structure Blended (top : Rgba) where
  known : List (Rgba × Rgba)
  known_eq : ∀ pair ∈ known, pair.2 = blend top pair.1

namespace Blended

variable {top : Rgba}

/-- How many colours are remembered. -/
def memory : Nat := 16

/-- A colour that has not been laid over any. -/
def fresh : Blended top := ⟨[], by simp⟩

/-- What comes of laying the colour over another, which is looked up if it is remembered. -/
def next (blended : Blended top) (below : Rgba) : Rgba × Blended top :=
  match blended.known.find? (·.1 = below) with
  | some pair => (pair.2, blended)
  | none =>
    let result := blend top below
    (result, ⟨(below, result) :: blended.known.take (memory - 1), by
      intro pair h
      rcases List.mem_cons.1 h with rfl | h
      · rfl
      · exact blended.known_eq pair (List.mem_of_mem_take h)⟩)

theorem next_result (blended : Blended top) (below : Rgba) :
    (blended.next below).1 = blend top below := by
  unfold next
  split
  · next pair h =>
    have hp := blended.known_eq pair (List.mem_of_find?_eq_some h)
    have hu : pair.1 = below := by simpa using List.find?_some h
    rw [hp, hu]
  · rfl

end Blended

end CanvasScript.Rgba
