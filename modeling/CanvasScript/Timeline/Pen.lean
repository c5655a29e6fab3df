import CanvasScript.Command.Motion

/-!
# The pen

What a program carries from one command to the next: the drawing frame, the styles of fills and of
strokes, and a stack of remembered values for each of the three.

Model of `_StylePass` and `_MatrixPass`, whose three stacks are pushed and popped one by one.
`resolved` are `resolved_fill` and `resolved_stroke`.

* `Pen.apply` is the pen after a command. A restore with an empty stack keeps the value in use.
* `Pen.missing` tells the stacks that a restore finds empty.

Out of scope: commands that were not decoded. The default of `resolved` stands in where no style was
set. It would for an empty style as well, but commands are well formed: their colours are styles
(`Command.fits_of_decodeAll`), so no pen holds an empty one (`Pen.Colored.ne_empty`).
-/

namespace CanvasScript

/-- One thing for fills and one for strokes. -/
structure PerPaint (β : Type) where
  fill : β
  stroke : β
  deriving DecidableEq, Repr

namespace PerPaint

variable {β γ : Type}

/-- The thing of a paint. -/
def get (both : PerPaint β) : Paint → β
  | .fill => both.fill
  | .stroke => both.stroke

/-- Both things, one of them put in place. -/
def set (both : PerPaint β) : Paint → β → PerPaint β
  | .fill, b => { both with fill := b }
  | .stroke, b => { both with stroke := b }

/-- A function of both things. -/
def map (f : β → γ) (both : PerPaint β) : PerPaint γ := ⟨f both.fill, f both.stroke⟩

/-- A function of the two things of each paint. -/
def zipWith {δ : Type} (f : β → γ → δ) (a : PerPaint β) (b : PerPaint γ) : PerPaint δ :=
  ⟨f a.fill b.fill, f a.stroke b.stroke⟩

/-- A function of both things that may fail, for fills first. -/
def mapM {ε : Type} (f : β → Except ε γ) (both : PerPaint β) : Except ε (PerPaint γ) :=
  return ⟨← f both.fill, ← f both.stroke⟩

end PerPaint

/-- What a save remembers and a restore brings back. -/
inductive Track where
  | fill
  | stroke
  | matrix
  deriving DecidableEq, Repr

/-- The name of a track. -/
def Track.name : Track → String
  | .fill => "fill"
  | .stroke => "stroke"
  | .matrix => "matrix"

/-- What a program carries from one command to the next. A style that was never set is none. -/
structure Pen (α : Type) where
  matrix : Affine α
  style : PerPaint (Option String)
  matrices : List (Affine α)
  fills : List (Option String)
  strokes : List (Option String)
  deriving Repr

namespace Pen

variable {α : Type}

/-- The pen at the start of a program. -/
def start [Scalar α] : Pen α := ⟨Affine.identity, ⟨none, none⟩, [], [], []⟩

/-- The pen with its values remembered. -/
def save (pen : Pen α) : Pen α :=
  { pen with
    matrices := pen.matrix :: pen.matrices
    fills := pen.style.fill :: pen.fills
    strokes := pen.style.stroke :: pen.strokes }

/-- The pen with the values remembered last. -/
def restore (pen : Pen α) : Pen α where
  matrix := pen.matrices.head?.getD pen.matrix
  style := ⟨pen.fills.head?.getD pen.style.fill, pen.strokes.head?.getD pen.style.stroke⟩
  matrices := pen.matrices.tail
  fills := pen.fills.tail
  strokes := pen.strokes.tail

/-- The pen after a command. -/
def apply [Scalar α] (pen : Pen α) : Command α → Pen α
  | .move motion => { pen with matrix := pen.matrix * motion.transform }
  | .style paint color => { pen with style := pen.style.set paint (some color) }
  | .save => pen.save
  | .restore => pen.restore
  | .draw _ _ _ => pen
  | .invalid _ _ => pen

/-- The tracks with nothing to bring back. -/
def emptyTracks (pen : Pen α) : List Track :=
  (if pen.fills.isEmpty then [.fill] else []) ++
    (if pen.strokes.isEmpty then [.stroke] else []) ++
    (if pen.matrices.isEmpty then [.matrix] else [])

/-- The tracks that a command finds empty. -/
def missing (pen : Pen α) : Command α → List Track
  | .restore => pen.emptyTracks
  | _ => []

/-- The styles in use, where those that were never set have defaults. -/
def resolved (pen : Pen α) (defaults : PerPaint String) : PerPaint String :=
  pen.style.zipWith Option.getD defaults

end Pen

end CanvasScript
