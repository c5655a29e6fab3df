import CanvasScript.Proofs.Binary64.Part
import CanvasScript.Proofs.Binary64.Product
import CanvasScript.Proofs.Color

/-!
# Fading colours

A colour is faded (`fade_alpha`) by a double, which may be infinite or no number. It counts as a
part of one, and what is left of the alpha channel is the rounded product (`fadedTo`).

* `fadedAlpha_eq`: an alpha channel fades to the part that rounding leaves.
* `Rgba.fades`: **a colour fades in steadily**, from nothing to all of it.
* `Rgba.InRange.fade`: so it stays in the range of channels.
-/

namespace CanvasScript.Rgba

open Binary64 Rounding

/-! ## Alpha channels -/

/-- The alpha channel that is left of one at a part. -/
def fadedTo (alpha : Int) (part : Rat) : Int := halfEven (kept (alpha * part))

theorem fadedTo_zero (alpha : Int) : fadedTo alpha 0 = 0 := by
  unfold fadedTo
  rw [mul_zero, kept_zero]
  exact_mod_cast halfEven_intCast 0

theorem fadedTo_mono {alpha : Int} (halpha : 0 ≤ alpha) {part part' : Rat} (h0 : 0 ≤ part)
    (h : part ≤ part') : fadedTo alpha part ≤ fadedTo alpha part' := by
  have hcast : (0 : Rat) ≤ alpha := by exact_mod_cast halpha
  exact halfEven_mono (kept_mono (mul_nonneg hcast h0) (mul_le_mul_of_nonneg_left h hcast))

section

variable {alpha : Int} (hlow : 0 ≤ alpha) (hhigh : alpha ≤ 2 ^ 53)
include hlow hhigh

/-- **An alpha channel fades to the part that rounding leaves.** -/
theorem fadedAlpha_eq (t : Float) : fadedAlpha alpha t = .ok (fadedTo alpha (decode t).part) := by
  obtain ⟨h0, h1⟩ := part_mem (decode t)
  have halpha : toRat? (Scalar.ofInt alpha : Float) = .ok alpha := toRat?_ofInt (by omega)
  have hcast : (0 : Rat) ≤ alpha := by exact_mod_cast hlow
  have hproduct := toRat?_mul halpha (toRat?_unitClamp t) hcast h0 h1
  unfold fadedAlpha Scalar.ofInt?
  rw [if_pos (countsTo.holds hlow hhigh)]
  show (toRat? (Scalar.ofInt alpha * Scalar.unitClamp t)).map halfEven = _
  rw [hproduct]
  rfl

theorem fadedTo_one : fadedTo alpha 1 = alpha := by
  have halpha : toRat? (Scalar.ofInt alpha : Float) = .ok alpha := toRat?_ofInt (by omega)
  have hcast : (0 : Rat) ≤ alpha := by exact_mod_cast hlow
  have hproduct := toRat?_mul halpha toRat?_one hcast zero_le_one le_rfl
  have hround : (toRat? (Scalar.ofInt alpha * Scalar.one)).map halfEven = .ok alpha :=
    countsTo.round_mul_one hlow hhigh
  rw [hproduct] at hround
  exact Except.ok.inj hround

end

/-! ## Colours -/

/-- A colour fades in steadily. No amount is refused, and the other channels stay as they are. -/
structure Fades (c : Rgba) : Prop where
  total : ∀ t : Float, c.fade? t = .ok (c.fade t)
  channels : ∀ t : Float,
    (c.fade t).red = c.red ∧ (c.fade t).green = c.green ∧ (c.fade t).blue = c.blue
  bounded : ∀ t : Float, 0 ≤ (c.fade t).alpha ∧ (c.fade t).alpha ≤ c.alpha
  mono : ∀ t t' : Float, t ≤ t' → (c.fade t).alpha ≤ (c.fade t').alpha
  /-- Up to zero nothing is left of the colour. -/
  nothing : ∀ t : Float, t ≤ Scalar.zero → (c.fade t).alpha = 0
  /-- From one on all of it is there. -/
  all : ∀ t : Float, Scalar.one ≤ t → c.fade t = c

/-- **A colour fades in steadily**, from nothing to all of it. -/
theorem fades {c : Rgba} (hlow : 0 ≤ c.alpha) (hhigh : c.alpha ≤ 255) : c.Fades := by
  have hfade? (t : Float) :
      c.fade? t = .ok { c with alpha := fadedTo c.alpha (decode t).part } := by
    unfold fade?
    rw [fadedAlpha_eq hlow (by omega)]
    rfl
  have hfade (t : Float) : c.fade t = { c with alpha := fadedTo c.alpha (decode t).part } := by
    unfold fade
    rw [hfade?]
  have hone := fadedTo_one hlow (by omega)
  have hzero : (decode (Scalar.zero : Float)).part = 0 := by decide +kernel
  have hall : (decode (Scalar.one : Float)).part = 1 := by decide +kernel
  refine ⟨fun t => ?_, fun t => ?_, fun t => ?_, fun t t' h => ?_, fun t h => ?_, fun t h => ?_⟩
  · rw [hfade?, hfade]
  · rw [hfade]
    exact ⟨rfl, rfl, rfl⟩
  · obtain ⟨h0, h1⟩ := part_mem (decode t)
    rw [hfade]
    exact ⟨(fadedTo_zero c.alpha).ge.trans (fadedTo_mono hlow le_rfl h0),
      (fadedTo_mono hlow h0 h1).trans hone.le⟩
  · rw [hfade, hfade]
    exact fadedTo_mono hlow (part_mem _).1 (part_mono h)
  · have hpart : (decode t).part = 0 :=
      le_antisymm ((part_mono h).trans hzero.le) (part_mem _).1
    rw [hfade, hpart]
    exact fadedTo_zero c.alpha
  · have hpart : (decode t).part = 1 :=
      le_antisymm (part_mem _).2 (hall.ge.trans (part_mono h))
    rw [hfade, hpart, hone]

/-- A colour that is faded keeps to the channels that it has. -/
theorem InRange.fade {c : Rgba} (h : c.InRange) (t : Float) : (c.fade t).InRange := by
  have hfades := fades h.alpha.1 h.alpha.2
  obtain ⟨hred, hgreen, hblue⟩ := hfades.channels t
  obtain ⟨hlow, hhigh⟩ := hfades.bounded t
  exact ⟨hred ▸ h.red, hgreen ▸ h.green, hblue ▸ h.blue, hlow, hhigh.trans h.alpha.2⟩

end CanvasScript.Rgba
