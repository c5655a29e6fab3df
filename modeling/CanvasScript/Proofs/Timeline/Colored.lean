import CanvasScript.Proofs.Timeline.Block
import CanvasScript.Proofs.Timeline.PlainCanvas

/-!
# Styles that denote colours

Whatever a program saves and restores, the styles that its pen holds and remembers are none or
denote colours, if those that its commands name do. So every style that is looked up has a colour.

* `Pen.Colored`: the styles of a pen, in use and remembered, denote colours.
* `Pen.Colored.ne_empty`: none of them is empty, so a default stands in only where none was set.
* `Pen.Colored.apply` and `Pen.Colored.run`: **every command keeps that**.
* `Timeline.exists_stepsFrom`: **so programs whose colours are styles compile**.
-/

namespace CanvasScript

variable {α : Type}

/-- A style that denotes a colour, if there is one. -/
def IsColored (style : Option String) : Prop := ∀ s, style = some s → Rgba.isStyle s = true

theorem isColored_none : IsColored none := fun _ h => nomatch h

theorem isColored_some {s : String} (h : Rgba.isStyle s = true) : IsColored (some s) :=
  fun _ hs => Option.some.inj hs ▸ h

/-- What is brought back from a stack, or kept where it is empty. -/
theorem isColored_head {style : Option String} {stack : List (Option String)}
    (hstyle : IsColored style) (hstack : ∀ entry ∈ stack, IsColored entry) :
    IsColored (stack.head?.getD style) := by
  cases stack with
  | nil => exact hstyle
  | cons entry rest => exact hstack entry (List.mem_cons_self ..)

namespace Pen

/-- The styles of a pen, in use and remembered, are none or denote colours. -/
structure Colored (pen : Pen α) : Prop where
  style : ∀ paint, IsColored (pen.style.get paint)
  fills : ∀ entry ∈ pen.fills, IsColored entry
  strokes : ∀ entry ∈ pen.strokes, IsColored entry

theorem colored_start [Scalar α] : (start (α := α)).Colored where
  style paint := by cases paint <;> exact isColored_none
  fills _ hmem := nomatch hmem
  strokes _ hmem := nomatch hmem

namespace Colored

variable {pen : Pen α}

theorem save (h : pen.Colored) : pen.save.Colored where
  style := h.style
  fills := List.forall_mem_cons.mpr ⟨h.style .fill, h.fills⟩
  strokes := List.forall_mem_cons.mpr ⟨h.style .stroke, h.strokes⟩

theorem restore (h : pen.Colored) : pen.restore.Colored where
  style paint := by
    cases paint with
    | fill => exact isColored_head (h.style .fill) h.fills
    | stroke => exact isColored_head (h.style .stroke) h.strokes
  fills entry hmem := h.fills entry (List.mem_of_mem_tail hmem)
  strokes entry hmem := h.strokes entry (List.mem_of_mem_tail hmem)

/-- A style in use that was set is not empty. -/
theorem ne_empty (h : pen.Colored) {paint : Paint} {style : String}
    (hstyle : pen.style.get paint = some style) : style ≠ "" := by
  rintro rfl
  exact absurd (h.style paint "" hstyle) (by decide +kernel)

/-- **The styles in use denote colours**, where the defaults do. -/
theorem resolved (h : pen.Colored) {defaults : PerPaint String}
    (hdefaults : ∀ paint, Rgba.isStyle (defaults.get paint) = true) (paint : Paint) :
    Rgba.isStyle ((pen.resolved defaults).get paint) = true := by
  unfold Pen.resolved
  rw [PerPaint.get_zipWith]
  cases hstyle : pen.style.get paint with
  | none => exact hdefaults paint
  | some s => exact h.style paint s hstyle

variable [Scalar α]

/-- **Every command keeps the styles of a pen.** -/
theorem apply (h : pen.Colored) {command : Command α}
    (hcolors : ∀ style ∈ command.colors, Rgba.isStyle style = true) :
    (pen.apply command).Colored := by
  cases command with
  | style paint color =>
    refine ⟨fun other => ?_, h.fills, h.strokes⟩
    show IsColored ((pen.style.set paint (some color)).get other)
    rw [PerPaint.get_set]
    split
    · exact isColored_some (hcolors color (List.mem_singleton.mpr rfl))
    · exact h.style other
  | save => exact h.save
  | restore => exact h.restore
  | move | draw | invalid => exact ⟨h.style, h.fills, h.strokes⟩

/-- **A program keeps the styles of a pen.** -/
theorem run {commands : List (Command α)} (h : pen.Colored)
    (hcolors : ∀ command ∈ commands, ∀ style ∈ command.colors, Rgba.isStyle style = true) :
    (pen.run commands).Colored := by
  induction commands generalizing pen with
  | nil => exact h
  | cons command rest ih =>
    obtain ⟨hcommand, hrest⟩ := List.forall_mem_cons.mp hcolors
    exact ih (h.apply hcommand) hrest

end Colored

end Pen

namespace Timeline

variable [Scalar α] {defaults : PerPaint String}

/-- **Programs whose colours are styles compile**, from every pen that holds styles only. -/
theorem exists_stepsFrom (hdefaults : ∀ paint, Rgba.isStyle (defaults.get paint) = true)
    {commands : List (Command α)}
    (hcolors : ∀ command ∈ commands, ∀ style ∈ command.colors, Rgba.isStyle style = true)
    {pen : Pen α} (hpen : pen.Colored) (earlier : PerPaint String) (index : Nat) :
    ∃ steps, stepsFrom defaults earlier index pen commands = .ok steps := by
  induction commands generalizing pen earlier index with
  | nil => exact ⟨[], rfl⟩
  | cons command rest ih =>
    obtain ⟨hcommand, hrest⟩ := List.forall_mem_cons.mp hcolors
    obtain ⟨step, hstep⟩ := exists_stepOf hcommand (hpen.resolved hdefaults)
      ((hpen.apply hcommand).resolved hdefaults) earlier index
    obtain ⟨steps, hsteps⟩ := ih hrest (hpen.apply hcommand) step.style (index + 1)
    exact ⟨step :: steps, bind_eq_ok.mpr ⟨step, hstep, bind_eq_ok.mpr ⟨steps, hsteps, rfl⟩⟩⟩

/-- So there is a timeline of them. -/
theorem exists_compile (hdefaults : ∀ paint, Rgba.isStyle (defaults.get paint) = true)
    {commands : List (Command α)}
    (hcolors : ∀ command ∈ commands, ∀ style ∈ command.colors, Rgba.isStyle style = true) :
    ∃ timeline, compile defaults commands = .ok timeline ∧
      timeline.steps.map (·.command) = commands := by
  obtain ⟨steps, hsteps⟩ := exists_stepsFrom hdefaults hcolors Pen.colored_start defaults 0
  exact ⟨_, bind_eq_ok.mpr ⟨steps, hsteps, rfl⟩, commands_stepsFrom hsteps⟩

end Timeline

end CanvasScript
