import CanvasScript.Proofs.Timeline.PlainCanvas
import CanvasScript.Proofs.Timeline.StyleReader
import CanvasScript.Scalar.Binary64
import CanvasScript.Timeline.Render

/-!
# What a trace tells of styles

A drawing says its style only where that is not the style of the step before (`show_fill_style` and
`show_stroke_style`). So a colour of its own is told once, and the style in use is told again only
by a drawing right behind it: any other step in between, and the reader of the trace is left with
the colour.

* `Telling` follows, along a program, how what was told last stands to the style in use.
* `Hears` relates it to a reader of the trace.
* `hears_apply`: **the statements of a step keep the relation**.
* `Timeline.reader_trace`: **at a drawing a reader has its style, unless a colour that an earlier
  step drew with for once was never taken back**.
* `reader_misled`: such a colour, behind which the program saves its styles.
-/

namespace CanvasScript

/-- How the style that was told last of a paint stands to the style in use. -/
inductive Told where
  /-- It is the style in use. -/
  | inUse
  /-- It is another one, which the step before drew with. -/
  | fresh
  /-- It is another one, which an earlier step drew with. -/
  | stale
  deriving DecidableEq, Repr

namespace Told

/-- A step later. -/
def age : Told → Told
  | .inUse => .inUse
  | .fresh => .stale
  | .stale => .stale

/-- Behind a drawing with a style. -/
def draw (told : Told) (style drawn : String) : Told :=
  if drawn ≠ style then .fresh
  else if told = .stale then .stale
  else .inUse

/-- What it means for the style in use, the one of the step before and the one that was told. -/
def Holds (told : Told) (style earlier heard : String) : Prop :=
  match told with
  | .inUse => heard = style ∧ earlier = style
  | .fresh => heard = earlier ∧ heard ≠ style
  | .stale => heard ≠ style ∧ earlier = style

variable {told : Told} {style earlier heard drawn : String}

theorem holds_age (h : told.Holds style earlier heard) : told.age.Holds style style heard := by
  cases told with
  | inUse => exact ⟨h.1, rfl⟩
  | fresh => exact ⟨h.2, rfl⟩
  | stale => exact ⟨h.1, rfl⟩

/-- **A drawing is told unless its style is the one in use and an older one stands.** -/
theorem holds_draw (h : told.Holds style earlier heard) :
    (told.draw style drawn).Holds style drawn (if drawn ≠ earlier then drawn else heard) ∧
      ((if drawn ≠ earlier then drawn else heard) = drawn ↔ drawn ≠ style ∨ told ≠ .stale) := by
  by_cases hdrawn : drawn = style
  · subst hdrawn
    cases told with
    | inUse =>
      obtain ⟨rfl, rfl⟩ := h
      simp [draw, Holds]
    | fresh =>
      obtain ⟨rfl, hne⟩ := h
      simp [draw, Holds, Ne.symm hne]
    | stale =>
      obtain ⟨hne, rfl⟩ := h
      simp [draw, Holds, hne]
  · -- a colour of its own is shown unless the step before drew with the same one
    have hheard : (if drawn ≠ earlier then drawn else heard) = drawn := by
      split
      · rfl
      · rename_i hsame
        obtain rfl := not_not.mp hsame
        cases told with
        | inUse => exact absurd h.2 hdrawn
        | fresh => exact h.1
        | stale => exact absurd h.2 hdrawn
    rw [hheard]
    simp [draw, Holds, hdrawn]

end Told

variable {α : Type}

/-- A canvas, with how what a trace tells of its styles stands to them. -/
structure Telling (α : Type) where
  canvas : PlainCanvas α
  told : PerPaint Told
  saved : List (PerPaint Told)

namespace Telling

/-- What was told, a step later. -/
def aged (telling : Telling α) : PerPaint Told := telling.told.map Told.age

/-- The style that a figure is drawn with, which may have a colour of its own. -/
def drawn (telling : Telling α) (paint : Paint) (own : Option String) : String :=
  own.getD (telling.canvas.style.get paint)

/-- A reader has the style of a drawing: the drawing has a colour of its own, or no such colour of
an earlier step stands. -/
def Tells (telling : Telling α) (paint : Paint) (own : Option String) : Prop :=
  telling.drawn paint own ≠ telling.canvas.style.get paint ∨ telling.told.get paint ≠ .stale

section

variable [Scalar α]

/-- Nothing is told at the start, where both styles are the defaults. -/
def start (defaults : PerPaint String) : Telling α :=
  ⟨PlainCanvas.start defaults, ⟨.inUse, .inUse⟩, []⟩

/-- What is told after a command. -/
def apply (telling : Telling α) (command : Command α) : Telling α where
  canvas := telling.canvas.apply command
  told :=
    match command with
    | .style paint _ => telling.aged.set paint .inUse
    | .restore => telling.saved.head?.getD telling.aged
    | .draw paint _ own =>
      telling.aged.set paint
        ((telling.told.get paint).draw (telling.canvas.style.get paint) (telling.drawn paint own))
    | _ => telling.aged
  saved :=
    match command with
    | .save => telling.aged :: telling.saved
    | .restore => telling.saved.tail
    | _ => telling.saved

/-- What is told after a program. -/
def run (telling : Telling α) (commands : List (Command α)) : Telling α :=
  commands.foldl apply telling

end

end Telling

/-- A reader has heard what is told, where `earlier` are the styles of the step before. -/
structure Hears (telling : Telling α) (earlier : PerPaint String) (reader : StyleReader) : Prop
    where
  now : ∀ paint, (telling.told.get paint).Holds (telling.canvas.style.get paint)
    (earlier.get paint) (reader.style.get paint)
  saved : List.Forall₂ (fun (entry : (Affine α × PerPaint String) × PerPaint Told) heard =>
      ∀ paint, (entry.2.get paint).Holds (entry.1.2.get paint) (entry.1.2.get paint)
        (PerPaint.get heard paint))
    (telling.canvas.saved.zip telling.saved) reader.saved
  length : telling.saved.length = telling.canvas.saved.length

/-- The line that a drawing says its style in, if it does. -/
def Step.styleLine (step : Step α) (paint : Paint) : List (Statement α) :=
  if step.shows.get paint then [.style paint (step.style.get paint)] else []

/-- What a reader has heard when a drawing has said its style. -/
def StyleReader.heard (reader : StyleReader) (paint : Paint) (earlier drawn : String) : String :=
  if drawn ≠ earlier then drawn else reader.style.get paint

theorem hear_styleLine (reader : StyleReader) {step : Step α} {earlier : PerPaint String}
    (hshows : step.shows = step.style.zipWith (fun now old => now != old) earlier)
    (paint : Paint) :
    (step.styleLine paint).foldl StyleReader.hear reader =
      reader.set paint (reader.heard paint (earlier.get paint) (step.style.get paint)) := by
  have hshow : step.shows.get paint = (step.style.get paint != earlier.get paint) := by
    rw [hshows, PerPaint.get_zipWith]
  unfold Step.styleLine StyleReader.heard
  rw [hshow]
  by_cases hsame : step.style.get paint = earlier.get paint
  · rw [if_neg (by simpa using hsame), if_neg (not_not.mpr hsame)]
    cases paint <;> rfl
  · rw [if_pos (by simpa using hsame), if_pos hsame]
    rfl

/-- A step later, when nothing was told of a paint. -/
theorem Hears.aged {telling : Telling α} {earlier : PerPaint String} {reader : StyleReader}
    (h : Hears telling earlier reader) (paint : Paint) :
    (telling.aged.get paint).Holds (telling.canvas.style.get paint)
      (telling.canvas.style.get paint) (reader.style.get paint) := by
  unfold Telling.aged
  rw [PerPaint.get_map]
  exact Told.holds_age (h.now paint)

/-- A drawing has the styles in use, but for a colour of its own. -/
theorem drawnStyle_draw (paint : Paint) (figure : Figure α) (own : Option String)
    (style : PerPaint String) :
    (Command.draw paint figure own).drawnStyle style =
      style.set paint (own.getD (style.get paint)) := by
  cases own with
  | none => cases paint <;> rfl
  | some color => rfl

/-- **At a drawing a reader has its style, unless an older colour stands.** -/
theorem heard_eq_iff {telling : Telling α} {earlier : PerPaint String} {reader : StyleReader}
    (h : Hears telling earlier reader) {step : Step α} {paint : Paint} {figure : Figure α}
    {own : Option String}
    (hstyle : step.style = (Command.draw paint figure own).drawnStyle telling.canvas.style)
    (hshows : step.shows = step.style.zipWith (fun now old => now != old) earlier) :
    ((step.styleLine paint).foldl StyleReader.hear reader).style.get paint = step.style.get paint ↔
      telling.Tells paint own := by
  have hdrawn : step.style.get paint = telling.drawn paint own := by
    rw [hstyle]
    exact get_drawnStyle paint figure own telling.canvas.style
  rw [hear_styleLine reader hshows, hdrawn]
  show (reader.style.set paint _).get paint = _ ↔ _
  rw [PerPaint.get_set, if_pos rfl]
  exact (Told.holds_draw (h.now paint)).2

section

variable [Scalar α]

theorem hears_start (defaults : PerPaint String) :
    Hears (α := α) (Telling.start defaults) defaults (StyleReader.start defaults) where
  now paint := by cases paint <;> exact ⟨rfl, rfl⟩
  saved := .nil
  length := rfl

theorem describe_draw {step : Step α} {paint : Paint} {figure : Figure α} {own : Option String}
    (h : step.command = .draw paint figure own) (t : α) :
    step.describe t = step.styleLine paint ++ [.draw paint figure] := by
  unfold Step.describe Step.styleLine
  rw [h]
  show (if step.shows.get paint then [_, _] else [_]) = _
  split <;> rfl

variable {telling : Telling α} {earlier : PerPaint String} {reader : StyleReader}

/-- A drawing tells its style where that is not the one of the step before. -/
theorem hears_draw (h : Hears telling earlier reader) {step : Step α} {paint : Paint}
    {figure : Figure α} {own : Option String} (hcommand : step.command = .draw paint figure own)
    (hstyle : step.style = (Command.draw paint figure own).drawnStyle telling.canvas.style)
    (hshows : step.shows = step.style.zipWith (fun now old => now != old) earlier) (t : α) :
    Hears (telling.apply (.draw paint figure own)) step.style
      ((step.describe t).foldl StyleReader.hear reader) := by
  have hset := hstyle.trans (drawnStyle_draw paint figure own telling.canvas.style)
  have hdrawn : step.style.get paint = telling.drawn paint own := by
    rw [hset, PerPaint.get_set, if_pos rfl]
    rfl
  rw [describe_draw hcommand, List.foldl_append, hear_styleLine reader hshows, hdrawn, hset]
  refine ⟨fun other => ?_, h.saved, h.length⟩
  show ((telling.aged.set paint _).get other).Holds (telling.canvas.style.get other)
    ((telling.canvas.style.set paint (telling.drawn paint own)).get other)
    ((reader.style.set paint _).get other)
  simp only [PerPaint.get_set]
  split
  · rename_i hsame
    subst hsame
    exact (Told.holds_draw (h.now paint)).1
  · exact h.aged other

/-- A style is told when it is set. -/
theorem hears_style (h : Hears telling earlier reader) (paint : Paint) (color : String) :
    Hears (telling.apply (.style paint color)) (telling.canvas.style.set paint color)
      (reader.set paint color) := by
  refine ⟨fun other => ?_, h.saved, h.length⟩
  show ((telling.aged.set paint .inUse).get other).Holds
    ((telling.canvas.style.set paint color).get other)
    ((telling.canvas.style.set paint color).get other) ((reader.style.set paint color).get other)
  simp only [PerPaint.get_set]
  split
  · exact ⟨rfl, rfl⟩
  · exact h.aged other

/-- A restore brings back what was told when the styles were saved. -/
theorem hears_restore (h : Hears telling earlier reader) :
    Hears (telling.apply .restore) (telling.canvas.apply .restore).style reader.restore := by
  obtain ⟨⟨matrix, style, saved⟩, told, tolds⟩ := telling
  obtain ⟨heard, remembered⟩ := reader
  have hsaved := h.saved
  have hlength := h.length
  cases saved with
  | nil =>
    obtain rfl := List.eq_nil_of_length_eq_zero hlength
    cases hsaved
    exact ⟨h.aged, .nil, rfl⟩
  | cons entry rest =>
    cases tolds with
    | nil => cases hlength
    | cons now more =>
      cases hsaved with
      | cons hnow hmore => exact ⟨hnow, hmore, Nat.succ.inj hlength⟩

/-- **The statements of a step keep the relation.** -/
theorem hears_apply (h : Hears telling earlier reader) {step : Step α} {command : Command α}
    (hcommand : step.command = command)
    (hstyle : step.style = command.drawnStyle (telling.canvas.apply command).style)
    (hshows : step.shows = step.style.zipWith (fun now old => now != old) earlier) (t : α) :
    Hears (telling.apply command) step.style ((step.describe t).foldl StyleReader.hear reader) := by
  cases command with
  | draw paint figure own => exact hears_draw h hcommand hstyle hshows t
  | move motion =>
    unfold Step.describe
    rw [hcommand, hstyle]
    have hhear : reader.hear (motion.statement t) = reader := by cases motion <;> rfl
    show Hears _ _ (reader.hear (motion.statement t))
    rw [hhear]
    exact ⟨h.aged, h.saved, h.length⟩
  | invalid items reason =>
    unfold Step.describe
    rw [hcommand, hstyle]
    exact ⟨h.aged, h.saved, h.length⟩
  | save =>
    unfold Step.describe
    rw [hcommand, hstyle]
    exact ⟨h.aged, .cons h.aged h.saved, congrArg (· + 1) h.length⟩
  | restore =>
    unfold Step.describe
    rw [hcommand, hstyle]
    exact hears_restore h
  | style paint color =>
    have hset : step.style.get paint = color := by
      rw [hstyle]
      show (telling.canvas.style.set paint color).get paint = color
      rw [PerPaint.get_set, if_pos rfl]
    unfold Step.describe
    rw [hcommand]
    dsimp only
    rw [hset, hstyle]
    exact hears_style h paint color

/-- **Along a program a reader hears what is told**, whatever the amounts of the steps are. -/
theorem exists_hears {defaults : PerPaint String} (amount : Step α → α) :
    ∀ {commands : List (Command α)} {pen : Pen α} {telling : Telling α} {earlier : PerPaint String}
      {reader : StyleReader} {index : Nat} {steps : List (Step α)},
      Timeline.stepsFrom defaults earlier index pen commands = .ok steps →
      Simulates defaults pen telling.canvas → Hears telling earlier reader →
      ∀ {i : Nat} {command : Command α}, commands[i]? = some command →
      ∃ step before now, steps[i]? = some step ∧
        IsStepOf defaults before (index + i) now command step ∧
        Simulates defaults now (telling.run (commands.take i)).canvas ∧
        Hears (telling.run (commands.take i)) before
          (((steps.take i).flatMap fun step => step.describe (amount step)).foldl
            StyleReader.hear reader) := by
  intro commands
  induction commands with
  | nil =>
    intro pen telling earlier reader index steps hsteps hsim hhears i command hi
    cases hi
  | cons first rest ih =>
    intro pen telling earlier reader index steps hsteps hsim hhears i command hi
    obtain ⟨step, more, rfl, hstep, hmore⟩ := Timeline.stepsFrom_cons hsteps
    cases i with
    | zero =>
      cases hi
      exact ⟨step, earlier, pen, rfl, hstep, hsim, hhears⟩
    | succ i =>
      have hnext := simulates_apply hsim first
      have hstyle := hstep.style_eq
      rw [hnext.style] at hstyle
      have hheard := hears_apply hhears hstep.command_eq hstyle hstep.shows_eq (amount step)
      obtain ⟨found, before, now, hget, hfound, hnow, hhear⟩ := ih hmore hnext hheard hi
      refine ⟨found, before, now, hget, ?_, hnow, ?_⟩
      · rw [Nat.add_right_comm] at hfound
        exact hfound
      · rw [List.take_succ_cons, List.take_succ_cons, List.flatMap_cons, List.foldl_append]
        exact hhear

end

/-! ## The texts of a trace -/

section

variable [Written α]

/-- The texts of a line. -/
def TraceLine.texts (line : TraceLine α) : List String := line.statements.map Statement.text

/-- What a reader has heard of the texts of lines is what their statements say. -/
theorem StyleReader.readAll_flatMap_texts (reader : StyleReader) (lines : List (TraceLine α)) :
    reader.readAll (lines.flatMap TraceLine.texts) =
      (lines.flatMap TraceLine.statements).foldl hear reader := by
  rw [← readAll_texts, List.map_flatMap]
  rfl

namespace Timeline

/-- Forward, a trace has the line of every step. -/
theorem exists_trace_forward (timeline : Timeline α) (x : α) (reverses : Bool) :
    ∃ trace position, timeline.trace (.ok x) .forward reverses = .ok trace ∧
      trace.lines = timeline.steps.map (Trace.line position .forward) := by
  have hallowed : timeline.allowed .forward = .ok .forward := if_neg fun h => nomatch h.1
  unfold trace
  rw [hallowed]
  by_cases hempty : timeline.steps.isEmpty = true
  · refine ⟨Trace.empty .forward, x, if_pos hempty, ?_⟩
    rw [List.isEmpty_iff.mp hempty]
    rfl
  · exact ⟨_, _, if_neg hempty, rfl⟩

/-- **At a drawing a reader of the trace has the style that it is drawn with, unless a colour that
an earlier step drew with for once still stands.** The reader starts from the defaults and has read
the texts of the lines before, and the style line of the drawing if there is one. -/
theorem reader_trace {defaults : PerPaint String} {commands : List (Command α)}
    {timeline : Timeline α} (h : compile defaults commands = .ok timeline) (x : α)
    (reverses : Bool) :
    ∃ trace, timeline.trace (.ok x) .forward reverses = .ok trace ∧
      ∀ i paint figure own, commands[i]? = some (.draw paint figure own) →
        ∃ line step before, trace.lines[i]? = some line ∧ timeline.steps[i]? = some step ∧
          line.texts = before ++ [(Statement.draw paint figure).text] ∧
          Rgba.ofStyle (step.style.get paint) = .ok (step.color.get paint) ∧
          (((StyleReader.start defaults).readAll
              ((trace.lines.take i).flatMap TraceLine.texts ++ before)).style.get paint =
              step.style.get paint ↔
            ((Telling.start defaults).run (commands.take i)).Tells paint own) := by
  obtain ⟨steps, hsteps, h⟩ := bind_eq_ok.mp h
  cases h
  obtain ⟨trace, position, htrace, hlines⟩ := exists_trace_forward
    ⟨steps, warningsFrom 0 Pen.start commands⟩ x reverses
  refine ⟨trace, htrace, fun i paint figure own hi => ?_⟩
  obtain ⟨step, earlier, pen, hget, hstep, hsim, hhears⟩ :=
    exists_hears (fun step => Trace.amount step.index position) hsteps
      (simulates_start defaults) (hears_start defaults) hi
  have hstyle := hstep.style_eq
  rw [(simulates_apply hsim _).style] at hstyle
  refine ⟨Trace.line position .forward step, step, (step.styleLine paint).map Statement.text,
    ?_, hget, ?_, ?_, ?_⟩
  · rw [hlines, List.getElem?_map, hget]
    rfl
  · show (step.describe _).map Statement.text = _
    rw [describe_draw hstep.command_eq, List.map_append]
    rfl
  · exact PerPaint.get_of_mapM hstep.color_eq paint
  · rw [StyleReader.readAll_append, StyleReader.readAll_flatMap_texts,
      StyleReader.readAll_texts, hlines, ← List.map_take, List.flatMap_map]
    exact heard_eq_iff hhears hstyle hstep.shows_eq

end Timeline

end

/-- A colour for once, behind which the styles are saved. -/
def redBeforeSave : List (Command Float) :=
  [.draw .fill (.rect (.int 0) (.int 0) (.int 1) (.int 1)) (some "red"), .save,
    .draw .fill (.rect (.int 0) (.int 0) (.int 2) (.int 2)) none]

theorem reader_trace_redBeforeSave :
    ∃ timeline, Timeline.compile ⟨"black", "black"⟩ redBeforeSave = .ok timeline ∧
      ∃ trace, timeline.trace (.ok (Scalar.ofInt 3)) .forward false = .ok trace ∧
      ∀ i paint figure own, redBeforeSave[i]? = some (.draw paint figure own) →
        ∃ line step before, trace.lines[i]? = some line ∧ timeline.steps[i]? = some step ∧
          line.texts = before ++ [(Statement.draw paint figure).text] ∧
          Rgba.ofStyle (step.style.get paint) = .ok (step.color.get paint) ∧
          (((StyleReader.start ⟨"black", "black"⟩).readAll
              ((trace.lines.take i).flatMap TraceLine.texts ++ before)).style.get paint =
              step.style.get paint ↔
            ((Telling.start ⟨"black", "black"⟩).run (redBeforeSave.take i)).Tells paint own) := by
  have hcompiled : (Timeline.compile ⟨"black", "black"⟩ redBeforeSave).toBool = true := by
    decide +kernel
  cases hcompile : Timeline.compile ⟨"black", "black"⟩ redBeforeSave with
  | error error =>
    rw [hcompile] at hcompiled
    cases hcompiled
  | ok timeline => exact ⟨timeline, rfl, Timeline.reader_trace hcompile (Scalar.ofInt 3) false⟩

/-- The reader is left with the red, and the last rectangle is black. -/
theorem reader_misled :
    ∃ timeline trace step, Timeline.compile ⟨"black", "black"⟩ redBeforeSave = .ok timeline ∧
      timeline.trace (.ok (Scalar.ofInt 3)) .forward false = .ok trace ∧
      trace.lines.flatMap TraceLine.texts =
        ["fillStyle = \"red\";", "fillRect(0,0,1,1);", "save();", "fillRect(0,0,2,2);"] ∧
      ((StyleReader.start ⟨"black", "black"⟩).readAll
        ["fillStyle = \"red\";", "fillRect(0,0,1,1);", "save();"]).style.fill = "red" ∧
      timeline.steps[2]? = some step ∧ step.style.fill = "black" := by
  refine ⟨_, _, _, rfl, rfl, ?_, ?_, rfl, rfl⟩
  · decide +kernel
  · decide +kernel

end CanvasScript
