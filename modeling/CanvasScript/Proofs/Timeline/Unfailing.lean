import CanvasScript.Proofs.Binary64.Range
import CanvasScript.Proofs.Timeline.Colored
import CanvasScript.Proofs.Timeline.Forward

/-!
# Decoded programs do not fail

What can go wrong with a program is found when it is decoded. Behind that nothing fails: neither to
compile it (`compile_commands`), nor to render it at any position (`render`), nor to write its trace
(`Trace.text`).

* `Timeline.render?` renders with the checked functions of the steps.
* `Timeline.render?_eq`: **where the steps compute, that is rendering**, on every surface.
* `Timeline.exists_run_render`: **rendering on a recording succeeds** in every allowed direction.
* `decoded_unfailing`: **a decoded program compiles, renders and is written**, and every style that
  it looks up on the way denotes a colour.

Out of scope: surfaces and markers that fail by themselves.
-/

namespace CanvasScript

open Scalar

/-! ## Checked rendering -/

/-- A rendering that may stop. -/
abbrev CheckedRendering (σ β : Type) := ExceptT Failure (StateM σ) β

section

variable {σ β : Type}

/-- A drawing as a checked rendering. -/
def Drawing.checked (drawing : Drawing σ β) : CheckedRendering σ β :=
  drawing.adapt fun fault => .rendering (.drawing fault)

/-- A rendering as a checked one. -/
def Rendering.checked (rendering : Rendering σ β) : CheckedRendering σ β :=
  rendering.adapt .rendering

/-- What is computed apart from the surface. -/
def CheckedRendering.compute (result : Except Failure β) : CheckedRendering σ β :=
  ExceptT.mk (pure result)

end

open CheckedRendering (compute)

section

variable {α : Type} [Scalar α] {σ : Type} [Surface α σ]

/-- Draws the figure of a step, faded to `t`. -/
def Step.draw? (step : Step α) (t : α) : CheckedRendering σ Unit := do
  let color ← compute ((step.colors? t).mapError .arithmetic)
  match step.command with
  | .draw paint figure _ =>
    (Surface.paint (.figure paint figure) lineWidth (color.get paint) : Drawing σ Unit).checked
  | _ => pure ()

/-- Draws a step in the frame that it has reached at `t`. -/
def Step.within? (step : Step α) (t : α) : CheckedRendering σ Unit :=
  Drawing.framed do
    let effect ← compute (step.progress? t)
    (Drawing.enter effect.matrix : Drawing σ Unit).checked
    step.draw? t

namespace Timeline

/-- Draws a step backward if it is left to do, moving the common frame. -/
def drawLeft? (position : α) (step : Step α) : CheckedRendering σ Unit := do
  let t := step.backwardAmount position
  if zero < t then
    let part ← compute ((step.partway? t).mapError .arithmetic)
    (Drawing.enter part : Drawing σ Unit).checked
    step.draw? t

/-- Draws the timeline at the position of a trace. -/
def draw? (timeline : Timeline α) (trace : Trace α) : CheckedRendering σ Unit :=
  if timeline.steps.isEmpty then pure ()
  else
    match trace.direction with
    | .forward => (begun timeline.steps trace.position).forM fun (step, t) => step.within? t
    | .backward => Drawing.framed (timeline.steps.forM (drawLeft? trace.position))

/-- The line of a step. -/
def line? (position : α) (direction : Direction) (step : Step α) :
    Except Failure (TraceLine α) := do
  let done := Trace.amount step.index position
  let shown :=
    match direction with
    | .forward => done
    | .backward => one - done
  return {
    index := step.index
    statements := ← step.describe? shown
    progress := Trace.progress step.index position
    amount := done }

/-- The trace of the timeline at a position that is asked for. -/
def trace? (timeline : Timeline α) (p : α) (direction : Direction) (reverses : Bool) :
    Except Failure (Trace α) := do
  let direction ← (timeline.allowed direction).mapError fun error => .rendering (.direction error)
  if timeline.steps.isEmpty then return Trace.empty direction
  let position := effectivePosition p timeline.length (reverses && direction = .backward)
  return ⟨← timeline.steps.mapM (line? position direction), position, direction⟩

/-- Draws the timeline at a position that is asked for; the result is its trace. -/
def render? (timeline : Timeline α) (p : α) (direction : Direction) (reverses : Bool) :
    CheckedRendering σ (Trace α) := do
  let trace ← compute (timeline.trace? p direction reverses)
  timeline.draw? trace
  return trace

end Timeline

end

namespace Trace

variable {α : Type} [Written α]

/-- The lines of a step: a mark stands before the active one. -/
def stepLines? (line : TraceLine α) : Except Failure (List String) :=
  line.statements.mapM fun statement => do
    return (if line.progress = .active then "> " else "  ") ++ (← statement.text?)

/-- The lines of the trace. -/
def textLines? (trace : Trace α) : Except Failure (List String) := do
  let cursor := trace.cursor
  let blocks ← trace.lines.mapM fun line => do
    return (if cursor = some (line.index : Int) then [cursorLine] else []) ++ (← stepLines? line)
  return blocks.flatten ++ if cursor = some (trace.lines.length : Int) then [cursorLine] else []

/-- The text of the trace. -/
def text? (trace : Trace α) : Except Failure String :=
  return String.intercalate "\n" (← trace.textLines?)

end Trace

/-! ## Checks that never strike -/

section

variable {α : Type} [Written α] {σ : Type} [Surface α σ]

omit [Written α] in
theorem framed_adapt {ε δ β : Type} (adapter : ε → δ) (drawing : ExceptT ε (StateM σ) β) :
    (Drawing.framed drawing).adapt adapter = Drawing.framed (drawing.adapt adapter) := rfl

omit [Written α] [Surface α σ] in
theorem checked_rendering {β : Type} (drawing : Drawing σ β) :
    (Rendering.checked drawing.rendering) = drawing.checked := by
  funext s
  show (((drawing s).1.mapError _).mapError _, (drawing s).2) = ((drawing s).1.mapError _, _)
  cases (drawing s).1 with
  | error fault => rfl
  | ok b => rfl

namespace Step.Computes

variable {step : Step α} (h : step.Computes)

include h

theorem draw?_eq (t : α) : (step.draw? t : CheckedRendering σ Unit) = (step.draw t).checked := by
  unfold draw? draw
  rw [h.colors]
  cases step.command with
  | draw paint figure color =>
    show (Surface.paint _ _ ((step.color.map (·.fade t)).get paint) : Drawing σ Unit).checked = _
    rw [PerPaint.get_map]
  | _ => rfl

theorem within?_eq (t : α) :
    (step.within? t : CheckedRendering σ Unit) = (step.within t (step.draw t)).checked := by
  unfold within? within Drawing.checked
  rw [h.progress, framed_adapt, adapt_bind, h.draw?_eq]
  rfl

theorem drawLeft?_eq (position : α) :
    (Timeline.drawLeft? position step : CheckedRendering σ Unit) =
      (Timeline.drawLeft position step).checked := by
  unfold Timeline.drawLeft? Timeline.drawLeft Drawing.checked
  dsimp only
  split
  · rw [h.partway, adapt_bind, h.draw?_eq]
    rfl
  · rfl

theorem line?_eq (position : α) (direction : Direction) :
    Timeline.line? position direction step = .ok (Trace.line position direction step) := by
  unfold Timeline.line?
  simp only [h.describe]
  rfl

end Step.Computes

namespace Timeline

variable {timeline : Timeline α} (h : ∀ step ∈ timeline.steps, step.Computes)

include h

theorem trace?_eq (p : α) (direction : Direction) (reverses : Bool) :
    timeline.trace? p direction reverses =
      (timeline.trace (.ok p) direction reverses).mapError .rendering := by
  unfold trace? trace
  cases timeline.allowed direction with
  | error error => rfl
  | ok direction =>
    have hlines (position : α) : timeline.steps.mapM (line? position direction) =
        .ok (timeline.steps.map (Trace.line position direction)) :=
      mapM_eq_ok fun step hstep => (h step hstep).line?_eq position direction
    show (if _ then _ else _) = Except.mapError _ (if _ then _ else _)
    split
    · rfl
    · simp only [hlines]
      rfl

theorem draw?_eq (trace : Trace α) :
    (timeline.draw? trace : CheckedRendering σ Unit) = (timeline.draw trace none).checked := by
  unfold draw? draw
  split
  · rfl
  · cases trace.direction with
    | forward =>
      have hbegun (entry) (hentry : entry ∈ begun timeline.steps trace.position) :
          (entry.1.within? entry.2 : CheckedRendering σ Unit) =
            (entry.1.within entry.2 (entry.1.draw entry.2)).checked := by
        obtain ⟨step, hstep, rfl⟩ := List.mem_map.mp (List.mem_of_mem_filter hentry)
        exact (h step hstep).within?_eq _
      show List.forM _ _ = (drawForward timeline.steps trace.position none).checked
      unfold drawForward Drawing.checked
      rw [forM_congr hbegun, adapt_bind, adapt_forM]
      exact (bind_pure_unit).symm
    | backward =>
      show Drawing.framed _ = (drawBackward timeline.steps trace.position none).checked
      unfold drawBackward Drawing.checked
      rw [forM_congr fun step hstep => (h step hstep).drawLeft?_eq trace.position, framed_adapt,
        adapt_bind, adapt_forM]
      exact congrArg _ (bind_pure_unit).symm

/-- **Where the steps compute, checked rendering is rendering.** -/
theorem render?_eq (p : α) (direction : Direction) (reverses : Bool) :
    (timeline.render? p direction reverses : CheckedRendering σ (Trace α)) =
      (timeline.render (.ok p) direction reverses none).checked := by
  unfold render? render Rendering.checked
  rw [trace?_eq h, adapt_bind]
  cases timeline.trace (.ok p) direction reverses with
  | error error => rfl
  | ok trace =>
    show (timeline.draw? trace >>= fun _ => pure trace) =
      ((timeline.draw trace none).rendering >>= fun _ => pure trace).adapt .rendering
    rw [draw?_eq h, adapt_bind, ← checked_rendering]
    rfl

end Timeline

/-- **A trace is written where each of its statements is.** -/
theorem Trace.text?_eq {trace : Trace α}
    (h : ∀ line ∈ trace.lines, ∀ statement ∈ line.statements,
      statement.text? = .ok statement.text) : trace.text? = .ok trace.text := by
  have hstep (line) (hline : line ∈ trace.lines) : stepLines? line = .ok (stepLines line) :=
    mapM_eq_ok fun statement hstatement => by rw [h line hline statement hstatement]; rfl
  have hblocks : (trace.lines.mapM fun line => do
      return (if trace.cursor = some (line.index : Int) then [cursorLine] else []) ++
        (← stepLines? line)) = .ok (trace.lines.map fun line =>
          (if trace.cursor = some (line.index : Int) then [cursorLine] else []) ++
            stepLines line) :=
    mapM_eq_ok fun line hline => by rw [hstep line hline]; rfl
  unfold text? textLines?
  simp only [hblocks]
  rfl

end

/-! ## Rendering on recordings -/

section

variable {α : Type} [Scalar α]

namespace Timeline

/-- A step that is left to do moves the frame and draws in it, and remembers nothing. -/
theorem exists_run_drawLeft (position : α) (step : Step α) (recording : Recording α) :
    ∃ calls transform, (drawLeft position step) recording =
      (.ok (), (recording.append calls).inFrame ⟨transform, recording.frame.saved⟩) := by
  unfold drawLeft
  split
  · exact ⟨_, _, (run_bind_ok (Step.run_enter _ _)).trans (step.run_draw _ _)⟩
  · refine ⟨[], recording.frame.transform, ?_⟩
    rw [Recording.append_nil]
    rfl

/-- Backward drawing adds calls and leaves the frame as it was. -/
theorem exists_run_drawBackward (steps : List (Step α)) (position : α) (recording : Recording α) :
    ∃ calls, (drawBackward steps position none) recording =
      (.ok (), recording.append calls) := by
  -- what is remembered stays the same from step to step, wherever the frame goes
  have hforM : ∀ (steps : List (Step α)) (recording : Recording α), ∃ calls transform,
      (steps.forM (drawLeft position)) recording =
        (.ok (), (recording.append calls).inFrame ⟨transform, recording.frame.saved⟩) := by
    intro steps
    induction steps with
    | nil =>
      intro recording
      refine ⟨[], recording.frame.transform, ?_⟩
      rw [Recording.append_nil]
      rfl
    | cons step rest ih =>
      intro recording
      obtain ⟨calls, transform, hstep⟩ := exists_run_drawLeft position step recording
      obtain ⟨more, final, hrest⟩ :=
        ih ((recording.append calls).inFrame ⟨transform, recording.frame.saved⟩)
      refine ⟨calls ++ more, final, (run_bind_ok hstep).trans (hrest.trans ?_)⟩
      rw [← Recording.append_append]
      rfl
  obtain ⟨calls, transform, hrun⟩ := hforM steps (recording.inFrame recording.frame.save)
  exact ⟨calls, Recording.run_framed ((run_bind_ok hrun).trans rfl)⟩

/-- **Drawing on a recording succeeds**, at every position. -/
theorem exists_run_draw (timeline : Timeline α) (trace : Trace α) (recording : Recording α) :
    ∃ calls, (timeline.draw trace none) recording = (.ok (), recording.append calls) := by
  unfold draw
  split
  · refine ⟨[], ?_⟩
    rw [Recording.append_nil]
    rfl
  · cases trace.direction with
    | forward => exact ⟨_, run_drawForward timeline.steps trace.position recording⟩
    | backward => exact exists_run_drawBackward timeline.steps trace.position recording

/-- **Rendering on a recording succeeds** in every allowed direction, at every position. -/
theorem exists_run_render {timeline : Timeline α} {direction : Direction}
    (hallowed : timeline.allowed direction = .ok direction) (p : α) (reverses : Bool)
    (recording : Recording α) :
    ∃ trace calls, timeline.trace (.ok p) direction reverses = .ok trace ∧
      (timeline.render (.ok p) direction reverses none).run recording =
        (.ok trace, recording.append calls) := by
  obtain ⟨trace, htrace, -⟩ := exists_trace hallowed p reverses
  obtain ⟨calls, hdraw⟩ := timeline.exists_run_draw trace recording
  exact ⟨trace, calls, htrace, run_render_of_trace htrace hdraw⟩

end Timeline

end

/-! ## Decoded programs -/

section

variable {α : Type} [Written α]

/-- At every position the timeline is rendered in a direction, on every recording, with all checks
as without, and what it tells is written. -/
def Timeline.Renders (timeline : Timeline α) (direction : Direction) : Prop :=
  ∀ (position : α) (reverses : Bool) (recording : Recording α), ∃ trace calls,
    (timeline.render? position direction reverses).run recording =
      (.ok trace, recording.append calls) ∧
    (timeline.render (.ok position) direction reverses none).run recording =
      (.ok trace, recording.append calls) ∧
    trace.text? = .ok trace.text

/-- Nothing fails on the way from commands to what they draw and tell. -/
structure Unfailing (defaults : PerPaint String) (commands : List (Command α)) : Prop where
  /-- The pen holds and remembers styles only, whatever was saved and restored. -/
  colored : ∀ k, (Pen.start.run (commands.take k)).Colored
  /-- So every style in use denotes a colour. -/
  resolved : ∀ k paint,
    Rgba.isStyle (((Pen.start.run (commands.take k)).resolved defaults).get paint) = true
  /-- The frames of the pen are computed. -/
  moves : commands.foldlM Pen.after? Pen.start = .ok (Pen.start.run commands)
  /-- The program compiles, to steps that compute, and is rendered in the directions that it may be
  played in. -/
  plays : ∃ timeline, Timeline.compile defaults commands = .ok timeline ∧
    (∀ step ∈ timeline.steps,
      step.Computes ∧ ∀ paint, Rgba.isStyle (step.style.get paint) = true) ∧
    timeline.Renders .forward ∧
    ((∀ command ∈ commands, command.isStack = false) → timeline.Renders .backward)

theorem Scalar.StaysFinite.foldlM_after? (hα : StaysFinite α) {commands : List (Command α)}
    (h : ∀ command ∈ commands, command.Fits) (pen : Pen α) :
    commands.foldlM Pen.after? pen = .ok (pen.run commands) := by
  induction commands generalizing pen with
  | nil => rfl
  | cons command rest ih =>
    obtain ⟨hcommand, hrest⟩ := List.forall_mem_cons.mp h
    rw [List.foldlM_cons, hα.after? hcommand]
    exact ih hrest (pen.apply command)

namespace Timeline

/-- **A timeline whose steps compute is rendered** in every allowed direction. -/
theorem renders {timeline : Timeline α} (h : ∀ step ∈ timeline.steps, step.Computes)
    {direction : Direction} (hallowed : timeline.allowed direction = .ok direction) :
    timeline.Renders direction := by
  intro position reverses recording
  obtain ⟨trace, calls, htrace, hrender⟩ :=
    exists_run_render hallowed position reverses recording
  refine ⟨trace, calls, ?_, hrender, Trace.text?_eq fun line hline => ?_⟩
  · rw [render?_eq h]
    exact run_adapt_ok _ hrender
  · obtain ⟨trace', htrace', hcases⟩ := exists_trace hallowed position reverses
    obtain rfl : trace = trace' := Except.ok.inj (htrace.symm.trans htrace')
    rcases hcases with ⟨rfl, -⟩ | rfl
    · cases hline
    · obtain ⟨step, hstep, rfl⟩ := List.mem_map.mp hline
      exact (h step hstep).text _

/-- The steps of commands that fit compute, and their styles denote colours. -/
theorem computes_stepsFrom (hα : StaysFinite α) {defaults earlier : PerPaint String} {index : Nat}
    {pen : Pen α} {commands : List (Command α)} {steps : List (Step α)}
    (hsteps : stepsFrom defaults earlier index pen commands = .ok steps)
    (h : ∀ command ∈ commands, command.Fits) :
    ∀ step ∈ steps, step.Computes ∧ ∀ paint, Rgba.isStyle (step.style.get paint) = true := by
  intro step hstep
  have hcolor (paint) : Rgba.ofStyle (step.style.get paint) = .ok (step.color.get paint) :=
    PerPaint.get_of_mapM (color_stepsFrom hsteps step hstep) paint
  have hcommand : step.command ∈ commands := by
    rw [← commands_stepsFrom hsteps]
    exact List.mem_map_of_mem hstep
  refine ⟨Step.computes hα (h _ hcommand) fun paint => Rgba.inRange_ofStyle (hcolor paint), ?_⟩
  exact fun paint => isOk_iff.mpr ⟨_, hcolor paint⟩

end Timeline

/-- **Commands that fit do not fail.** -/
theorem unfailing_of_fits (hα : StaysFinite α) {commands : List (Command α)}
    (h : ∀ command ∈ commands, command.Fits) {defaults : PerPaint String}
    (hdefaults : ∀ paint, Rgba.isStyle (defaults.get paint) = true) :
    Unfailing defaults commands := by
  have hcolors (command) (hmem : command ∈ commands) := (h command hmem).colors
  have hcolored (k : Nat) : (Pen.start.run (commands.take k)).Colored :=
    Pen.colored_start.run fun command hmem => hcolors command (List.mem_of_mem_take hmem)
  obtain ⟨steps, hsteps⟩ :=
    Timeline.exists_stepsFrom hdefaults hcolors Pen.colored_start defaults 0
  have hcomputes := Timeline.computes_stepsFrom hα hsteps h
  let timeline : Timeline α := ⟨steps, Timeline.warningsFrom 0 Pen.start commands⟩
  have hrenders (direction) (hallowed : timeline.allowed direction = .ok direction) :
      timeline.Renders direction :=
    Timeline.renders (fun step hstep => (hcomputes step hstep).1) hallowed
  refine ⟨hcolored, fun k => (hcolored k).resolved hdefaults, hα.foldlM_after? h Pen.start,
    timeline, bind_eq_ok.mpr ⟨steps, hsteps, rfl⟩, hcomputes, ?_, fun hstack => ?_⟩
  · exact hrenders .forward timeline.allowed_forward
  · refine hrenders .backward (if_neg fun hstack' => ?_)
    obtain ⟨step, hstep, hany⟩ := List.any_eq_true.mp hstack'.2
    have hcommand : step.command ∈ commands := by
      rw [← Timeline.commands_stepsFrom hsteps]
      exact List.mem_map_of_mem hstep
    rw [hstack _ hcommand] at hany
    cases hany

end

/-- **A decoded program does not fail**: with defaults that are styles it compiles, it is rendered
at every double, and its trace is written. -/
theorem unfailing_of_decodeAll {policy : Policy} {instructions : List (Instruction Float)}
    {decoded : Decoded Float} (hdecode : Command.decodeAll policy instructions = .ok decoded)
    {defaults : PerPaint String}
    (hdefaults : ∀ paint, Rgba.isStyle (defaults.get paint) = true) :
    Unfailing defaults decoded.commands :=
  unfailing_of_fits Binary64.staysFinite (Command.fits_of_decodeAll hdecode) hdefaults

/-- A program that restores more than it saves, with an instruction that is skipped. -/
theorem unfailing_unbalanced :
    ∃ decoded, Command.decodeAll .skip unbalancedProgram = .ok decoded ∧
      decoded.commands.length = 12 ∧ Unfailing ⟨"black", "#888"⟩ decoded.commands := by
  have hlength : ((Command.decodeAll .skip unbalancedProgram).map (·.commands.length)).toOption =
      some 12 := by decide +kernel
  obtain ⟨decoded, hdecode, hlength⟩ := map_eq_ok.mp (toOption_eq_some.mp hlength)
  exact ⟨decoded, hdecode, hlength, unfailing_of_decodeAll hdecode isStyle_defaults⟩

end CanvasScript
