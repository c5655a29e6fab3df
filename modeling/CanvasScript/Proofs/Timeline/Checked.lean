import CanvasScript.Decimal.Limit
import CanvasScript.Proofs.Color
import CanvasScript.Proofs.Command.Fits
import CanvasScript.Timeline.Render

/-!
# Checked steps

The functions of a step are total, but what they compute is not defined everywhere: an integer may
lie beyond the scalars, an angle may be infinite, an integer may have more digits than are written,
and a command might be of no kind that a case handles. The functions here check all of that where it
can happen and stop. They go along `partial`, `progress`, `draw_step` and `describe_step`.

* `Motion.transform?`, `Step.progress?`, `Step.colors?` and `Step.describe?` compute what a step
  adds, does, draws with and says, case by case, and `Statement.text?` writes it.
* `Step.Computes`: the checked functions of a step stop nowhere and agree with the total ones.
* `Step.computes`: **a step whose command fits computes**, at every scalar, as far as the scalars
  keep what is finite finite (`Scalar.StaysFinite`).
-/

namespace CanvasScript

open Scalar

/-- Why a checked computation stops. -/
inductive Failure where
  | rendering (error : RenderError)
  | arithmetic (fault : ArithmeticFault)
  /-- An integer has more digits than are written. -/
  | tooLong
  /-- A command is of no kind that is handled. -/
  | unhandled
  deriving DecidableEq, Repr

/-- The text of an integer, unless it has too many digits. -/
def Decimal.integerText? (n : Int) : Except Failure String :=
  if digitLimit < (digits n.natAbs).length then .error .tooLong else .ok (integerText n)

section

variable {α : Type} [Scalar α]

/-! ## Checked functions -/

/-- The transform of a motion. -/
def Motion.transform? : Motion α → Except ArithmeticFault (Affine α)
  | .translate x y => return Affine.shift (← x.toScalar?) (← y.toScalar?)
  | .rotate angle => do Affine.rotation? (← angle.toScalar?)
  | .scale x y => return Affine.scaling (← x.toScalar?) (← y.toScalar?)
  | .shear x y => return Affine.shearing (← x.toScalar?) (← y.toScalar?)
  | .matrix a b c d e f =>
    return ⟨← a.toScalar?, ← b.toScalar?, ← c.toScalar?, ← d.toScalar?, ← e.toScalar?,
      ← f.toScalar?⟩

/-- The pen after a command. -/
def Pen.after? (pen : Pen α) (command : Command α) : Except ArithmeticFault (Pen α) :=
  if let .move motion := command then
    return { pen with matrix := pen.matrix * (← motion.transform?) }
  else return pen.apply command

namespace Step

/-- The transform that a step adds to the frame at `t` of its way. -/
def partway? (step : Step α) (t : α) : Except ArithmeticFault (Affine α) :=
  let t := unitClamp t
  if let .move (.translate x y) := step.command then
    return Affine.shift ((← x.toScalar?) * t) ((← y.toScalar?) * t)
  else if let .move (.rotate angle) := step.command then do
    Affine.rotation? ((← angle.toScalar?) * t)
  else if let .move (.scale x y) := step.command then
    return Affine.scaling (lerp one (← x.toScalar?) t) (lerp one (← y.toScalar?) t)
  else if let .move (.shear x y) := step.command then
    return Affine.shearing (lerp zero (← x.toScalar?) t) (lerp zero (← y.toScalar?) t)
  else if let .move (.matrix a b c d e f) := step.command then
    return ⟨lerp one (← a.toScalar?) t, lerp zero (← b.toScalar?) t, lerp zero (← c.toScalar?) t,
      lerp one (← d.toScalar?) t, lerp zero (← e.toScalar?) t, lerp zero (← f.toScalar?) t⟩
  else return Affine.identity

/-- The colours of a step, faded to `t`. -/
def colors? (step : Step α) (t : α) : Except ArithmeticFault (PerPaint Rgba) :=
  step.color.mapM fun c => c.fade? t

/-- What a step has done at `t` of its way. -/
def progress? (step : Step α) (t : α) : Except Failure (Effect α) :=
  let t := unitClamp t
  if let .move _ := step.command then do
    let part ← (step.partway? t).mapError .arithmetic
    return ⟨step.previous * part, step.after⟩
  else if let .style _ _ := step.command then return ⟨step.previous, step.after⟩
  else if let .draw _ _ _ := step.command then do
    return ⟨step.previous, ← (step.colors? t).mapError .arithmetic⟩
  else if step.command.isStack || step.command.isInvalid then
    if one ≤ t then return ⟨step.matrix, step.after⟩ else return ⟨step.previous, step.before⟩
  else throw .unhandled

/-- A drawing, preceded by its style where that is shown. -/
def withStyle (step : Step α) (paint : Paint) (figure : Figure α) : List (Statement α) :=
  if step.shows.get paint then [.style paint (step.style.get paint), .draw paint figure]
  else [.draw paint figure]

/-- What a step says at `t` of its way. -/
def describe? (step : Step α) (t : α) : Except Failure (List (Statement α)) :=
  let scalar (n : Number α) : Except Failure α := n.toScalar?.mapError .arithmetic
  if let .move (.translate x y) := step.command then
    return [.translate ((← scalar x) * t) ((← scalar y) * t)]
  else if let .move (.rotate angle) := step.command then
    return [.rotate ((← scalar angle) * t)]
  else if let .move (.scale x y) := step.command then
    return [.scale (lerp one (← scalar x) t) (lerp one (← scalar y) t)]
  else if let .move (.shear x y) := step.command then
    return [.shear ((← scalar x) * t) ((← scalar y) * t)]
  else if let .move (.matrix a b c d e f) := step.command then
    return [.matrix ⟨lerp one (← scalar a) t, lerp zero (← scalar b) t, lerp zero (← scalar c) t,
      lerp one (← scalar d) t, lerp zero (← scalar e) t, lerp zero (← scalar f) t⟩]
  else if let .save := step.command then return [.save]
  else if let .restore := step.command then return [.restore]
  else if let .style paint _ := step.command then return [.style paint (step.style.get paint)]
  else if let .draw paint (.rect x y width height) _ := step.command then
    return step.withStyle paint (.rect x y width height)
  else if let .draw paint (.triangle x₁ y₁ x₂ y₂ x₃ y₃) _ := step.command then
    return step.withStyle paint (.triangle x₁ y₁ x₂ y₂ x₃ y₃)
  else if let .draw paint (.arc x y radius start finish counterclockwise) _ := step.command then
    return step.withStyle paint (.arc x y radius start finish counterclockwise)
  else if let .invalid _ reason := step.command then return [.skipped reason]
  else throw .unhandled

end Step

end

section

variable {α : Type} [Written α]

/-- The written form of a number in a program. -/
def Number.plainText? : Number α → Except Failure String
  | .int n => Decimal.integerText? n
  | .real x =>
    match whole? x with
    | some n => Decimal.integerText? n
    | none => .ok (Written.shortest x)

/-- The text of a statement. -/
def Statement.text? : Statement α → Except Failure String
  | .draw paint figure =>
    return (kindOf paint figure).name ++ "(" ++
      commaSeparated (← figure.numbers.mapM Number.plainText?) ++
        (if figure.isCounterclockwise then ",true" else "") ++ ");"
  | statement => .ok statement.text

/-! ## Scalars that stay finite -/

namespace Scalar

variable (α) in
/-- What is computed of the numbers of a program stays finite. -/
structure StaysFinite : Prop where
  /-- An integer within the finite scalars is converted to one of them. -/
  ofInt : ∀ {n : Int}, holds (α := α) n = true → isFinite (Scalar.ofInt n : α) = true
  /-- Channels of colours lie within the finite scalars. -/
  holds_channel : ∀ {n : Int}, 0 ≤ n → n ≤ 255 → holds (α := α) n = true
  /-- A part of a finite scalar is finite. -/
  mul_unitClamp : ∀ {x : α}, isFinite x = true → ∀ t, isFinite (x * unitClamp t) = true
  /-- A finite angle is finite in radians. -/
  radians : ∀ {x : α}, isFinite x = true → isFinite (Scalar.radians x) = true
  /-- A finite scalar has a nearest integer. -/
  round : ∀ {x : α}, isFinite x = true → ∃ n, Scalar.round x = .ok n
  /-- An integer that a scalar equals lies within the finite scalars. -/
  whole? : ∀ {x : α} {n : Int}, Scalar.whole? x = some n → holds (α := α) n = true
  /-- The integers within the finite scalars are not too long to be written. -/
  digits : ∀ {n : Int}, holds (α := α) n = true →
    (Decimal.digits n.natAbs).length ≤ Decimal.digitLimit

end Scalar

/-! ## Steps that compute -/

/-- The checked functions of a step stop nowhere and agree with the total ones. -/
structure Step.Computes (step : Step α) : Prop where
  partway : ∀ t, step.partway? t = .ok (step.partway t)
  colors : ∀ t, step.colors? t = .ok (step.color.map (·.fade t))
  progress : ∀ t, step.progress? t = .ok (step.progress t)
  describe : ∀ t, step.describe? t = .ok (step.describe t)
  text : ∀ t, ∀ statement ∈ step.describe t, statement.text? = .ok statement.text

/-! ### Numbers -/

theorem Number.holds_of_isFinite {n : Int} (h : (Number.int n : Number α).isFinite = .ok true) :
    holds (α := α) n = true := by
  by_contra hnot
  have herror : (Number.int n : Number α).isFinite = .error .tooLarge := if_neg hnot
  rw [herror] at h
  cases h

/-- A finite number is converted to the scalar that it denotes. -/
theorem Number.toScalar?_eq {n : Number α} (h : n.isFinite = .ok true) :
    n.toScalar? = .ok n.toScalar := by
  cases n with
  | real x => rfl
  | int n => exact if_pos (Number.holds_of_isFinite h)

namespace Scalar.StaysFinite

variable (hα : StaysFinite α)

include hα

theorem toScalar {n : Number α} (h : n.isFinite = .ok true) : isFinite n.toScalar = true := by
  cases n with
  | real x => exact Except.ok.inj h
  | int n => exact hα.ofInt (Number.holds_of_isFinite h)

theorem rotation? {x : α} (h : isFinite x = true) :
    Affine.rotation? x = .ok (Affine.rotation x) := by
  unfold Affine.rotation?
  simp only [hα.radians h, Bool.true_or, if_true]

theorem integerText? {n : Int} (h : holds (α := α) n = true) :
    Decimal.integerText? n = .ok (Decimal.integerText n) :=
  if_neg (not_lt.mpr (hα.digits h))

theorem plainText? {n : Number α} (h : n.isFinite = .ok true) :
    n.plainText? = .ok n.plainText := by
  cases n with
  | int n => exact hα.integerText? (Number.holds_of_isFinite h)
  | real x =>
    unfold Number.plainText? Number.plainText
    dsimp only
    cases hwhole : Scalar.whole? x with
    | some n => exact hα.integerText? (hα.whole? hwhole)
    | none => rfl

/-- **The numbers of a motion that are finite have a transform.** -/
theorem transform? {motion : Motion α} (h : ∀ n ∈ motion.numbers, n.isFinite = .ok true) :
    motion.transform? = .ok motion.transform := by
  have hscalar (n) (hn : n ∈ motion.numbers) : n.toScalar? = .ok n.toScalar :=
    Number.toScalar?_eq (h n hn)
  cases motion with
  | rotate angle =>
    have hangle := hα.rotation? (hα.toScalar (h angle (List.mem_singleton.mpr rfl)))
    simp only [Motion.numbers, List.forall_mem_cons] at hscalar
    simp only [Motion.transform?, hscalar]
    exact hangle
  | _ =>
    simp only [Motion.numbers, List.forall_mem_cons] at hscalar
    simp only [Motion.transform?, hscalar]
    rfl

/-- **A pen is moved by a command that fits.** -/
theorem after? {command : Command α} (h : command.Fits) (pen : Pen α) :
    pen.after? command = .ok (pen.apply command) := by
  cases command with
  | move motion =>
    have htransform := hα.transform? h.numbers
    simp only [Pen.after?, htransform]
    rfl
  | _ => rfl

/-- **A colour is faded to every scalar.** -/
theorem fade? {c : Rgba} (hc : c.InRange) (t : α) : c.fade? t = .ok (c.fade t) := by
  obtain ⟨hlow, hhigh⟩ := hc.alpha
  have hholds := hα.holds_channel hlow hhigh
  obtain ⟨n, hn⟩ := hα.round (hα.mul_unitClamp (hα.ofInt hholds) t)
  have halpha : Rgba.fadedAlpha c.alpha t = .ok n := by
    unfold Rgba.fadedAlpha Scalar.ofInt?
    rw [if_pos hholds]
    exact hn
  unfold Rgba.fade Rgba.fade?
  rw [halpha]
  rfl

end Scalar.StaysFinite

/-! ### Steps -/

namespace Step

theorem partway?_eq (hα : StaysFinite α) {step : Step α}
    (h : ∀ n ∈ step.command.numbers, n.isFinite = .ok true) (t : α) :
    step.partway? t = .ok (step.partway t) := by
  have hscalar (n) (hn : n ∈ step.command.numbers) : n.toScalar? = .ok n.toScalar :=
    Number.toScalar?_eq (h n hn)
  unfold partway? partway
  cases hcommand : step.command with
  | move motion =>
    rw [hcommand] at h hscalar
    cases motion with
    | rotate angle =>
      have hangle := hα.toScalar (h angle (List.mem_singleton.mpr rfl))
      have hpart := hα.rotation? (hα.mul_unitClamp hangle t)
      simp only [Command.numbers, Motion.numbers, List.forall_mem_cons] at hscalar
      simp only [hscalar]
      exact hpart
    | _ =>
      simp only [Command.numbers, Motion.numbers, List.forall_mem_cons] at hscalar
      simp only [hscalar]
      rfl
  | _ => rfl

theorem colors?_eq (hα : StaysFinite α) {step : Step α}
    (h : ∀ paint, (step.color.get paint).InRange) (t : α) :
    step.colors? t = .ok (step.color.map (·.fade t)) := by
  have hfill : step.color.fill.fade? t = .ok (step.color.fill.fade t) := hα.fade? (h .fill) t
  have hstroke : step.color.stroke.fade? t = .ok (step.color.stroke.fade t) :=
    hα.fade? (h .stroke) t
  simp only [colors?, PerPaint.mapM, hfill, hstroke]
  rfl

theorem progress?_eq {step : Step α} (hpartway : ∀ t, step.partway? t = .ok (step.partway t))
    (hcolors : ∀ t, step.colors? t = .ok (step.color.map (·.fade t))) (t : α) :
    step.progress? t = .ok (step.progress t) := by
  unfold progress? progress
  cases hcommand : step.command with
  | move motion =>
    simp only [hpartway]
    rfl
  | draw paint figure color =>
    simp only [hcolors]
    rfl
  | style paint color => rfl
  | save | restore | invalid => exact (apply_ite Except.ok _ _ _).symm

theorem describe?_eq {step : Step α} (h : ∀ n ∈ step.command.numbers, n.isFinite = .ok true)
    (t : α) : step.describe? t = .ok (step.describe t) := by
  have hscalar (n) (hn : n ∈ step.command.numbers) : n.toScalar? = .ok n.toScalar :=
    Number.toScalar?_eq (h n hn)
  unfold describe? describe
  cases hcommand : step.command with
  | move motion =>
    rw [hcommand] at hscalar
    cases motion with
    | _ =>
      simp only [Command.numbers, Motion.numbers, List.forall_mem_cons] at hscalar
      simp only [hscalar]
      rfl
  | draw paint figure color => cases figure <;> rfl
  | _ => rfl

/-- **What a step says can be written.** -/
theorem text?_eq (hα : StaysFinite α) {step : Step α}
    (h : ∀ n ∈ step.command.numbers, n.isFinite = .ok true) (t : α) :
    ∀ statement ∈ step.describe t, statement.text? = .ok statement.text := by
  intro statement hmem
  unfold describe at hmem
  cases hcommand : step.command with
  | draw paint figure color =>
    rw [hcommand] at h hmem
    have hnumbers : figure.numbers.mapM Number.plainText? =
        .ok (figure.numbers.map Number.plainText) :=
      mapM_eq_ok fun n hn => hα.plainText? (h n hn)
    have hdraw : (Statement.draw paint figure).text? =
        .ok (Statement.draw paint figure).text := by
      unfold Statement.text?
      simp only [hnumbers]
      rfl
    have hcases : statement = .style paint (step.style.get paint) ∨
        statement = .draw paint figure := by
      dsimp only at hmem
      split at hmem
      · simpa using hmem
      · exact .inr (List.mem_singleton.mp hmem)
    rcases hcases with rfl | rfl
    · rfl
    · exact hdraw
  | move motion =>
    rw [hcommand] at hmem
    obtain rfl := List.mem_singleton.mp hmem
    cases motion <;> rfl
  | save | restore | style | invalid =>
    rw [hcommand] at hmem
    obtain rfl := List.mem_singleton.mp hmem
    rfl

/-- **A step whose command fits computes**, if its colours are in range. -/
theorem computes (hα : StaysFinite α) {step : Step α} (hcommand : step.command.Fits)
    (hcolor : ∀ paint, (step.color.get paint).InRange) : step.Computes where
  partway := partway?_eq hα hcommand.numbers
  colors := colors?_eq hα hcolor
  progress := progress?_eq (partway?_eq hα hcommand.numbers) (colors?_eq hα hcolor)
  describe := describe?_eq hcommand.numbers
  text := text?_eq hα hcommand.numbers

end Step

end

end CanvasScript
