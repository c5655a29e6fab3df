import CanvasScript.Color.Style
import CanvasScript.Command
import CanvasScript.Geometry.Affine

/-!
# Surfaces

A surface is drawn on through a frame: a transform, and a stack of remembered ones. What a surface
makes of a shape is its own affair; the frame works alike on all of them.

Model of `DrawingSurface`, and of `TransformState` as `Frame`. The methods that draw are `paint` of
their figures.

* `Drawing σ β` is a drawing on surfaces of type `σ`. Where it fails, what was drawn before stays.
* `Drawing.framed` draws in a frame of its own, which is left again also where the drawing fails.
* Notes may be taken beside a surface: `σ × τ` is a surface when `σ` is one.

Out of scope: surfaces that remember transforms in any other way than `TransformState`.
-/

namespace CanvasScript

/-- The frame of a surface: its transform and the remembered ones. -/
structure Frame (α : Type) where
  transform : Affine α
  saved : List (Affine α)
  deriving DecidableEq, Repr

namespace Frame

variable {α : Type}

/-- The frame with its transform remembered. -/
def save (frame : Frame α) : Frame α := ⟨frame.transform, frame.transform :: frame.saved⟩

/-- The frame with the transform that was remembered last, if there is one. -/
def restore (frame : Frame α) : Frame α :=
  match frame.saved with
  | [] => frame
  | transform :: rest => ⟨transform, rest⟩

/-- How many transforms are remembered. -/
def depth (frame : Frame α) : Nat := frame.saved.length

@[simp] theorem restore_save (frame : Frame α) : frame.save.restore = frame := rfl

end Frame

/-- A shape to draw: a figure filled or stroked, or a line. -/
inductive Shape (α : Type) where
  | figure (paint : Paint) (figure : Figure α)
  | line (x₀ y₀ x₁ y₁ : Number α)
  deriving DecidableEq, Repr

/-- Why a drawing fails. -/
inductive DrawFault where
  | color (error : ColorError)
  | arithmetic (fault : ArithmeticFault)
  deriving DecidableEq, Repr

/-- The text that reports the fault. -/
def DrawFault.message : DrawFault → String
  | .color error => error.message
  | .arithmetic fault => fault.message

/-- A drawing on surfaces of a type. -/
abbrev Drawing (σ β : Type) := ExceptT DrawFault (StateM σ) β

/-- What can be drawn on. -/
class Surface (α : outParam Type) (σ : Type) where
  /-- The frame of the surface. -/
  frame : σ → Frame α
  /-- The surface with another frame. -/
  withFrame : σ → Frame α → σ
  /-- The surface without what was drawn. -/
  clear : σ → σ
  /-- Draws a shape in the frame of the surface, with lines of a width. -/
  paint : Shape α → (width : Number α) → Rgba → Drawing σ Unit

namespace Drawing

variable {α σ β : Type} [Surface α σ]

/-- Changes the frame. -/
def changeFrame (f : Frame α → Frame α) : Drawing σ Unit :=
  modify fun s => Surface.withFrame s (f (Surface.frame s))

/-- The transform in use. -/
def transform : Drawing σ (Affine α) :=
  return (Surface.frame (← get)).transform

/-- Puts a transform in use. -/
def setTransform (m : Affine α) : Drawing σ Unit :=
  changeFrame fun frame => { frame with transform := m }

/-- Remembers the transform. -/
def save : Drawing σ Unit := changeFrame Frame.save

/-- Brings back the transform that was remembered last. -/
def restore : Drawing σ Unit := changeFrame Frame.restore

/-- Takes away what was drawn. -/
def clear : Drawing σ Unit := modify Surface.clear

/-- Draws in a frame of its own, which is left again in any case. -/
def framed {ε : Type} (drawing : ExceptT ε (StateM σ) β) : ExceptT ε (StateM σ) β :=
  ExceptT.mk do
    let _ ← (save : Drawing σ Unit).run
    let result ← drawing.run
    let _ ← (restore : Drawing σ Unit).run
    return result

/-- Moves the frame by a transform inside the one in use. -/
def enter [Scalar α] (m : Affine α) : Drawing σ Unit := do
  setTransform ((← transform) * m)

end Drawing

/-- A surface with notes beside it. -/
instance {α σ τ : Type} [Surface α σ] : Surface α (σ × τ) where
  frame s := Surface.frame s.1
  withFrame s frame := (Surface.withFrame s.1 frame, s.2)
  clear s := (Surface.clear s.1, s.2)
  paint shape width color := fun s =>
    let (result, surface) := Surface.paint shape width color s.1
    (result, (surface, s.2))

end CanvasScript
