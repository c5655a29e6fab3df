import CanvasScript.Decimal.Notation
import CanvasScript.Number

/-!
# Colours

A colour has red, green, blue and alpha channels, integers that are `0` to `255` in every colour
that a style denotes.

Model of `RGBA`, `format_color`, `fade_alpha` and `_clamp_channel`. `ofNumbers?` rounds channels
that are no integers.

* `fade` scales the alpha channel from nothing at `0` to all of it at `1`.
* `text` writes a colour: without alpha when it is opaque, and else with alpha as a fraction to
  three significant digits.

Out of scope: the error of fading a colour whose alpha channel is no scalar, for which `fade?`
looks. `fade` leaves such a colour as it is; no style denotes one.
-/

namespace CanvasScript

/-- A colour of four channels. -/
structure Rgba where
  red : Int
  green : Int
  blue : Int
  alpha : Int
  deriving DecidableEq, Repr, Inhabited

namespace Rgba

/-- The opaque colour of three channels. -/
def solid (red green blue : Int) : Rgba := ⟨red, green, blue, 255⟩

/-- Opaque white. -/
def white : Rgba := solid 255 255 255

/-- The colour without any cover. -/
def clear : Rgba := ⟨0, 0, 0, 0⟩

/-- The channels in order. -/
def channels (c : Rgba) : List Int := [c.red, c.green, c.blue, c.alpha]

/-- A channel brought into `0 … 255`. -/
def clampChannel (n : Int) : Int := max 0 (min 255 n)

theorem clampChannel_mem (n : Int) : 0 ≤ clampChannel n ∧ clampChannel n ≤ 255 := by
  unfold clampChannel
  omega

/-- The colour with all channels brought into `0 … 255`. -/
def clamped (c : Rgba) : Rgba :=
  ⟨clampChannel c.red, clampChannel c.green, clampChannel c.blue, clampChannel c.alpha⟩

section

variable {α : Type} [Scalar α]

/-- The colour of four numbers, each rounded to the nearest integer. -/
def ofNumbers? (red green blue alpha : Number α) : Except ArithmeticFault Rgba :=
  return ⟨← red.round, ← green.round, ← blue.round, ← alpha.round⟩

/-- The alpha channel that is left of `alpha` at `t`, which is brought into `[0, 1]`. -/
def fadedAlpha (alpha : Int) (t : α) : Except ArithmeticFault Int := do
  Scalar.round ((← Scalar.ofInt? alpha) * Scalar.unitClamp t)

/-- The colour with its alpha channel scaled by `t`; refused when the alpha channel is no scalar. -/
def fade? (c : Rgba) (t : α) : Except ArithmeticFault Rgba :=
  return { c with alpha := ← fadedAlpha c.alpha t }

/-- The colour with its alpha channel scaled by `t`; a channel that is no scalar stays as it is. -/
def fade (c : Rgba) (t : α) : Rgba :=
  match fade? c t with
  | .ok faded => faded
  | .error _ => c

end

/-- How many decimals show three significant digits of `alpha / 255`. -/
def alphaPlaces (alpha : Nat) : Nat :=
  if 255 ≤ alpha * 10 then 3 else if 255 ≤ alpha * 100 then 4 else 5

/-- The fraction `alpha / 255` to three significant digits. -/
def alphaText (alpha : Nat) : String :=
  if alpha = 0 then "0"
  else
    let places := alphaPlaces alpha
    String.ofList (Decimal.stripZeros
      (Decimal.fixed places (Rounding.scaled places (mkRat alpha 255)).toNat))

/-- The written form of the colour. -/
def text (c : Rgba) : String :=
  let c := c.clamped
  let body := Decimal.integerText c.red ++ ", " ++ Decimal.integerText c.green ++ ", " ++
    Decimal.integerText c.blue
  if c.alpha = 255 then "rgb(" ++ body ++ ")"
  else "rgba(" ++ body ++ ", " ++ alphaText c.alpha.toNat ++ ")"

end Rgba

end CanvasScript
