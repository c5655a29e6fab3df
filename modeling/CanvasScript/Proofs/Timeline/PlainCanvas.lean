import CanvasScript.Proofs.Color
import CanvasScript.Proofs.Command.Fits
import CanvasScript.Proofs.Timeline.Compile
import CanvasScript.Proofs.Timeline.Record

/-!
# The canvas of a program

What a program draws is what a canvas with a single stack would show: a save remembers the frame and
both styles together, and a restore brings them back.

* `PlainCanvas.run` interprets a program on such a canvas, and emits a call for every figure.
* `Simulates` relates the pen of a timeline, with its three stacks, to a canvas.
* `simulates_apply`: **every command keeps the relation**.
* `stepsFrom_run`: **the steps of a program draw what the canvas emits**, from any related state.

Out of scope: commands whose colours are no styles, which decoding refuses.
-/

namespace CanvasScript

variable {α : Type}

/-- Styles that denote colours have some. -/
theorem exists_colors {style : PerPaint String}
    (h : ∀ paint, Rgba.isStyle (style.get paint) = true) :
    ∃ colors, style.mapM Rgba.ofStyle = .ok colors := by
  obtain ⟨fill, hfill⟩ := isOk_iff.mp (h .fill)
  obtain ⟨stroke, hstroke⟩ := isOk_iff.mp (h .stroke)
  exact ⟨⟨fill, stroke⟩, bind_eq_ok.mpr ⟨fill, hfill, bind_eq_ok.mpr ⟨stroke, hstroke, rfl⟩⟩⟩

/-- Two styles that denote colours. -/
theorem isStyle_defaults (paint : Paint) :
    Rgba.isStyle ((⟨"black", "#888"⟩ : PerPaint String).get paint) = true := by
  cases paint <;> decide +kernel

theorem isStyle_drawnStyle {command : Command α} {style : PerPaint String}
    (hcolors : ∀ style ∈ command.colors, Rgba.isStyle style = true)
    (h : ∀ paint, Rgba.isStyle (style.get paint) = true) (paint : Paint) :
    Rgba.isStyle ((command.drawnStyle style).get paint) = true := by
  unfold Command.drawnStyle
  split
  · rename_i drawn figure color
    have hcolor := hcolors color (List.mem_singleton.mpr rfl)
    rw [PerPaint.get_set]
    split
    · exact hcolor
    · exact h paint
  · exact h paint

/-- The style that a figure is drawn with: its own, or else the one in use. -/
theorem get_drawnStyle (paint : Paint) (figure : Figure α) (color : Option String)
    (style : PerPaint String) :
    ((Command.draw paint figure color).drawnStyle style).get paint =
      color.getD (style.get paint) := by
  cases color with
  | none => rfl
  | some color =>
    show (style.set paint color).get paint = color
    rw [PerPaint.get_set, if_pos rfl]

section

open Scalar

variable [Scalar α]

/-- A canvas: the frame, the styles, and the remembered pairs of both. -/
structure PlainCanvas (α : Type) where
  matrix : Affine α
  style : PerPaint String
  saved : List (Affine α × PerPaint String)

namespace PlainCanvas

/-- The canvas at the start of a program. -/
def start (defaults : PerPaint String) : PlainCanvas α := ⟨Affine.identity, defaults, []⟩

/-- The canvas after a command. -/
def apply (canvas : PlainCanvas α) : Command α → PlainCanvas α
  | .move motion => { canvas with matrix := canvas.matrix * motion.transform }
  | .style paint color => { canvas with style := canvas.style.set paint color }
  | .save => { canvas with saved := (canvas.matrix, canvas.style) :: canvas.saved }
  | .restore =>
    match canvas.saved with
    | [] => canvas
    | (matrix, style) :: rest => ⟨matrix, style, rest⟩
  | .draw _ _ _ => canvas
  | .invalid _ _ => canvas

/-- The calls of a command on a canvas in a base frame. -/
def emit (base : Affine α) (canvas : PlainCanvas α) :
    Command α → Except ColorError (List (DrawCall α))
  | .draw paint figure color => do
    let rgba ← Rgba.ofStyle (color.getD (canvas.style.get paint))
    return [⟨.figure paint figure, rgba, base * canvas.matrix⟩]
  | _ => .ok []

/-- The calls of a program on a canvas in a base frame. -/
def run (base : Affine α) (canvas : PlainCanvas α) :
    List (Command α) → Except ColorError (List (DrawCall α))
  | [] => .ok []
  | command :: rest => do
    return (← canvas.emit base command) ++ (← (canvas.apply command).run base rest)

/-- The styles of a canvas denote colours, the remembered ones too. -/
structure Colored (canvas : PlainCanvas α) : Prop where
  style : ∀ paint, Rgba.isStyle (canvas.style.get paint) = true
  saved : ∀ entry ∈ canvas.saved, ∀ paint, Rgba.isStyle (entry.2.get paint) = true

theorem colored_apply {canvas : PlainCanvas α} (h : canvas.Colored) {command : Command α}
    (hcolors : ∀ style ∈ command.colors, Rgba.isStyle style = true) :
    (canvas.apply command).Colored := by
  cases command with
  | move motion => exact ⟨h.style, h.saved⟩
  | style paint color =>
    refine ⟨fun other => ?_, h.saved⟩
    have hcolor := hcolors color (List.mem_singleton.mpr rfl)
    show Rgba.isStyle ((canvas.style.set paint color).get other) = true
    rw [PerPaint.get_set]
    split
    · exact hcolor
    · exact h.style other
  | save =>
    refine ⟨h.style, fun entry hentry => ?_⟩
    rcases List.mem_cons.mp hentry with rfl | hentry
    · exact h.style
    · exact h.saved entry hentry
  | restore =>
    unfold apply
    simp only
    split
    · exact h
    · rename_i matrix style rest hsaved
      have hsaves := h.saved
      rw [hsaved] at hsaves
      exact ⟨hsaves (matrix, style) (List.mem_cons_self ..), fun entry hentry =>
        hsaves entry (List.mem_cons_of_mem _ hentry)⟩
  | draw paint figure color => exact ⟨h.style, h.saved⟩
  | invalid items reason => exact ⟨h.style, h.saved⟩

end PlainCanvas

/-- The pen of a timeline stands for a canvas: the same frame and the same styles in use, and the
three stacks are the columns of the one. -/
structure Simulates (defaults : PerPaint String) (pen : Pen α) (canvas : PlainCanvas α) : Prop where
  matrix : pen.matrix = canvas.matrix
  style : pen.resolved defaults = canvas.style
  matrices : pen.matrices = canvas.saved.map (·.1)
  fills : pen.fills.map (·.getD defaults.fill) = canvas.saved.map (·.2.fill)
  strokes : pen.strokes.map (·.getD defaults.stroke) = canvas.saved.map (·.2.stroke)

theorem simulates_start (defaults : PerPaint String) :
    Simulates (α := α) defaults Pen.start (PlainCanvas.start defaults) :=
  ⟨rfl, rfl, rfl, rfl, rfl⟩

/-- **Every command keeps the relation.** -/
theorem simulates_apply {defaults : PerPaint String} {pen : Pen α} {canvas : PlainCanvas α}
    (h : Simulates defaults pen canvas) (command : Command α) :
    Simulates defaults (pen.apply command) (canvas.apply command) := by
  obtain ⟨hmatrix, hstyle, hmatrices, hfills, hstrokes⟩ := h
  cases command with
  | move motion =>
    exact ⟨congrArg (· * motion.transform) hmatrix, hstyle, hmatrices, hfills, hstrokes⟩
  | style paint color =>
    refine ⟨hmatrix, ?_, hmatrices, hfills, hstrokes⟩
    show (pen.apply (.style paint color)).resolved defaults = canvas.style.set paint color
    rw [← hstyle]
    cases paint <;> rfl
  | save =>
    refine ⟨hmatrix, hstyle, ?_, ?_, ?_⟩
    · exact congrArg₂ List.cons hmatrix hmatrices
    · exact congrArg₂ List.cons (congrArg PerPaint.fill hstyle) hfills
    · exact congrArg₂ List.cons (congrArg PerPaint.stroke hstyle) hstrokes
  | restore =>
    obtain ⟨matrix, style, saved⟩ := canvas
    obtain ⟨penMatrix, ⟨fill, stroke⟩, matrices, fills, strokes⟩ := pen
    cases saved with
    | nil =>
      -- all three stacks are empty, so nothing is brought back
      obtain rfl := List.map_eq_nil_iff.mp hfills
      obtain rfl := List.map_eq_nil_iff.mp hstrokes
      obtain rfl : matrices = [] := hmatrices
      exact ⟨hmatrix, hstyle, rfl, rfl, rfl⟩
    | cons entry rest =>
      obtain ⟨fill', fills', rfl, hfill, hfills'⟩ := List.map_eq_cons_iff.mp hfills
      obtain ⟨stroke', strokes', rfl, hstroke, hstrokes'⟩ := List.map_eq_cons_iff.mp hstrokes
      obtain rfl : matrices = entry.1 :: rest.map (·.1) := hmatrices
      exact ⟨rfl, congrArg₂ PerPaint.mk hfill hstroke, rfl, hfills', hstrokes'⟩
  | draw paint figure color => exact ⟨hmatrix, hstyle, hmatrices, hfills, hstrokes⟩
  | invalid items reason => exact ⟨hmatrix, hstyle, hmatrices, hfills, hstrokes⟩

/-! ## Steps -/

/-- What a step draws when it is finished. -/
def Step.finished (base : Affine α) (step : Step α) : List (DrawCall α) :=
  step.callsIn one (base * (step.progress one).matrix)

/-- A command is compiled where the styles around it denote colours. -/
theorem Timeline.exists_stepOf {defaults : PerPaint String} {pen : Pen α} {command : Command α}
    (hcolors : ∀ style ∈ command.colors, Rgba.isStyle style = true)
    (hstyle : ∀ paint, Rgba.isStyle ((pen.resolved defaults).get paint) = true)
    (hnext : ∀ paint, Rgba.isStyle (((pen.apply command).resolved defaults).get paint) = true)
    (earlier : PerPaint String) (index : Nat) :
    ∃ step, stepOf defaults earlier index pen command = .ok step := by
  obtain ⟨before, hbefore⟩ := exists_colors hstyle
  obtain ⟨after, hafter⟩ := exists_colors hnext
  obtain ⟨color, hcolor⟩ := exists_colors (isStyle_drawnStyle hcolors hnext)
  exact ⟨_, bind_eq_ok.mpr ⟨before, hbefore, bind_eq_ok.mpr ⟨after, hafter,
    bind_eq_ok.mpr ⟨color, hcolor, rfl⟩⟩⟩⟩

/-- **A step is compiled, and finished it draws what the canvas emits.** -/
theorem stepOf_emit (hcount : CountsTo α 255) {defaults : PerPaint String} {pen : Pen α}
    {canvas : PlainCanvas α} (h : Simulates defaults pen canvas) (hcolored : canvas.Colored)
    (base : Affine α) (earlier : PerPaint String) (index : Nat) {command : Command α}
    (hcolors : ∀ style ∈ command.colors, Rgba.isStyle style = true) :
    ∃ step, Timeline.stepOf defaults earlier index pen command = .ok step ∧
      canvas.emit base command = .ok (step.finished base) := by
  have hnext := simulates_apply h command
  have hstyle := hcolored.style
  have hnextStyle := (PlainCanvas.colored_apply hcolored hcolors).style
  rw [← h.style] at hstyle
  rw [← hnext.style] at hnextStyle
  obtain ⟨step, hstep⟩ := Timeline.exists_stepOf hcolors hstyle hnextStyle earlier index
  have hfields := Timeline.isStepOf_of_stepOf hstep
  refine ⟨step, hstep, ?_⟩
  unfold Step.finished Step.callsIn Step.progress
  rw [hfields.command_eq, hfields.previous_eq, h.matrix]
  cases command with
  | draw paint figure own =>
    have hdrawn := PerPaint.get_of_mapM hfields.color_eq paint
    rw [hfields.style_eq, get_drawnStyle, hnext.style] at hdrawn
    have hfade := Rgba.fade_one hcount (Rgba.inRange_ofStyle hdrawn)
    refine bind_eq_ok.mpr ⟨step.color.get paint, hdrawn, ?_⟩
    show Except.ok [DrawCall.mk _ (step.color.get paint) (base * canvas.matrix)] =
      .ok [DrawCall.mk _ ((step.color.get paint).fade one) (base * canvas.matrix)]
    rw [hfade]
  | _ => rfl

/-- **The steps of a program draw what the canvas emits**: the first of them, finished, what the
first commands do. -/
theorem stepsFrom_run (hcount : CountsTo α 255) (defaults : PerPaint String) (base : Affine α) :
    ∀ {commands : List (Command α)} {pen : Pen α} {canvas : PlainCanvas α}
      (earlier : PerPaint String) (index : Nat), Simulates defaults pen canvas → canvas.Colored →
      (∀ command ∈ commands, ∀ style ∈ command.colors, Rgba.isStyle style = true) →
      ∃ steps, Timeline.stepsFrom defaults earlier index pen commands = .ok steps ∧
        ∀ k, canvas.run base (commands.take k) = .ok ((steps.take k).flatMap (·.finished base))
  | [], _, _, _, _, _, _, _ => ⟨[], rfl, fun k => by rw [List.take_nil, List.take_nil]; rfl⟩
  | command :: rest, pen, canvas, earlier, index, h, hcolored, hcolors => by
    obtain ⟨hcommand, hrest⟩ := List.forall_mem_cons.mp hcolors
    obtain ⟨step, hstep, hemit⟩ := stepOf_emit hcount h hcolored base earlier index hcommand
    obtain ⟨steps, hsteps, hrun⟩ :=
      stepsFrom_run hcount defaults base step.style (index + 1) (simulates_apply h command)
        (PlainCanvas.colored_apply hcolored hcommand) hrest
    refine ⟨step :: steps, ?_, fun k => ?_⟩
    · exact bind_eq_ok.mpr ⟨step, hstep, bind_eq_ok.mpr ⟨steps, hsteps, rfl⟩⟩
    · cases k with
      | zero => rfl
      | succ k => exact bind_eq_ok.mpr ⟨_, hemit, bind_eq_ok.mpr ⟨_, hrun k, rfl⟩⟩

end

end CanvasScript
