import CanvasScript.Proofs.Timeline.Colored
import CanvasScript.Proofs.Timeline.Forward

/-!
# Refused slots

A slot whose instruction was refused (`InvalidCommand`) keeps its place in a program and does
nothing there. So a program does what its valid commands do, wherever the slots stand: between a
save and its restore, before the first command or behind the last one.

* `Command.valid`: the commands that were not refused.
* `Pen.run_valid`: **the pen behind a program is the one behind its valid commands**.
* `Timeline.warningsFrom_valid`, `Timeline.exists_valid` and `Timeline.stepsFrom_error_valid`: **so
  the valid commands have the same warnings, the same steps and the same error**.
* `Timeline.compile_valid`: **a program and its valid commands agree**, up to its end.
-/

namespace CanvasScript

variable {α : Type}

namespace Command

/-- The commands that were not refused. -/
def valid (commands : List (Command α)) : List (Command α) := commands.filter (!·.isInvalid)

theorem valid_cons_of_isInvalid {command : Command α} (h : command.isInvalid = true)
    (rest : List (Command α)) : valid (command :: rest) = valid rest :=
  List.filter_cons_of_neg (by simp [h])

theorem valid_cons {command : Command α} (h : command.isInvalid = false)
    (rest : List (Command α)) : valid (command :: rest) = command :: valid rest :=
  List.filter_cons_of_pos (by simp [h])

theorem valid_append (first second : List (Command α)) :
    valid (first ++ second) = valid first ++ valid second := List.filter_append ..

end Command

open Command (valid valid_cons valid_cons_of_isInvalid)

/-- The warning, with its place among the valid commands. -/
def StackWarning.amongValid (commands : List (Command α)) (w : StackWarning) : StackWarning :=
  { w with index := (valid (commands.take w.index)).length }

section

open Scalar

variable [Scalar α]

/-! ## Steps of a slot -/

namespace Pen

theorem apply_of_isInvalid {command : Command α} (h : command.isInvalid = true) (pen : Pen α) :
    pen.apply command = pen := by
  cases command with
  | invalid items reason => rfl
  | _ => cases h

omit [Scalar α] in
theorem missing_of_isInvalid {command : Command α} (h : command.isInvalid = true) (pen : Pen α) :
    pen.missing command = [] := by
  cases command with
  | invalid items reason => rfl
  | _ => cases h

/-- **The pen behind a program is the one behind its valid commands.** -/
theorem run_valid (pen : Pen α) (commands : List (Command α)) :
    pen.run (valid commands) = pen.run commands := by
  induction commands generalizing pen with
  | nil => rfl
  | cons command rest ih =>
    cases h : command.isInvalid with
    | false =>
      rw [valid_cons h]
      exact ih (pen.apply command)
    | true =>
      rw [valid_cons_of_isInvalid h]
      exact (ih pen).trans (congrArg (run · rest) (apply_of_isInvalid h pen).symm)

end Pen

namespace Step

/-- A step that changes nothing, however far it has come. -/
structure IsStill (step : Step α) : Prop where
  matrix : step.matrix = step.previous
  after : step.after = step.before
  progress : ∀ t : α, step.progress t = ⟨step.previous, step.before⟩

/-- **The step of a slot changes nothing.** -/
theorem isStill {defaults earlier : PerPaint String} {index : Nat} {pen : Pen α}
    {command : Command α} {step : Step α} (h : IsStepOf defaults earlier index pen command step)
    (hinvalid : command.isInvalid = true) : step.IsStill := by
  have hpen := Pen.apply_of_isInvalid hinvalid pen
  have hmatrix : step.matrix = step.previous := by
    rw [h.matrix_eq, h.previous_eq, hpen]
  have hafter : step.after = step.before := by
    have hafter := h.after_eq
    rw [hpen, h.before_eq] at hafter
    exact (Except.ok.inj hafter).symm
  refine ⟨hmatrix, hafter, fun t => ?_⟩
  unfold progress
  rw [h.command_eq]
  cases command with
  | invalid items reason => simp only [hmatrix, hafter, ite_self]
  | _ => cases hinvalid

/-- Steps that do the same draw the same. -/
theorem Alike.finished_eq {step other : Step α} (h : step.Alike other) (base : Affine α) :
    step.finished base = other.finished base := by
  unfold finished callsIn progress partway
  rw [h.command, h.previous, h.matrix, h.before, h.after, h.color]

/-- The step of a slot draws nothing. -/
theorem finished_of_isInvalid {step : Step α} (h : step.command.isInvalid = true)
    (base : Affine α) : step.finished base = [] := by
  unfold finished callsIn
  split
  · rename_i paint figure color hcommand
    rw [hcommand] at h
    cases h
  · rfl

/-- So finished steps draw what the valid ones among them do. -/
theorem flatMap_finished_filter (steps : List (Step α)) (base : Affine α) :
    (steps.filter (!·.command.isInvalid)).flatMap (·.finished base) =
      steps.flatMap (·.finished base) := by
  induction steps with
  | nil => rfl
  | cons step rest ih =>
    cases h : step.command.isInvalid with
    | false => rw [List.filter_cons_of_pos (by simp [h]), List.flatMap_cons, List.flatMap_cons, ih]
    | true =>
      rw [List.filter_cons_of_neg (by simp [h]), List.flatMap_cons, finished_of_isInvalid h, ih]
      rfl

/-- Steps that do the same, one by one, draw the same. -/
theorem flatMap_finished_alike {steps others : List (Step α)}
    (h : List.Forall₂ Alike steps others) (base : Affine α) :
    steps.flatMap (·.finished base) = others.flatMap (·.finished base) := by
  induction h with
  | nil => rfl
  | cons halike _ ih => rw [List.flatMap_cons, List.flatMap_cons, halike.finished_eq, ih]

end Step

namespace Timeline

/-! ## The valid commands of a program -/

variable {defaults : PerPaint String}

/-- **The warnings of the valid commands** are those of the program, each with its place among
them. -/
theorem warningsFrom_valid (before : List (Command α)) (pen : Pen α) (commands : List (Command α)) :
    warningsFrom (valid before).length pen (valid commands) =
      (warningsFrom before.length pen commands).map
        (StackWarning.amongValid (before ++ commands)) := by
  induction commands generalizing before pen with
  | nil => rfl
  | cons command rest ih =>
    have hrest := ih (before ++ [command]) (pen.apply command)
    rw [Command.valid_append, List.append_assoc, List.singleton_append, List.length_append,
      List.length_append] at hrest
    rw [warningsFrom, List.map_append, List.map_map]
    cases h : command.isInvalid with
    | false =>
      rw [valid_cons h, warningsFrom]
      rw [valid_cons h] at hrest
      refine congrArg₂ (· ++ ·) (List.map_congr_left fun track _ => ?_) hrest
      show StackWarning.mk (valid before).length track =
        ⟨(valid ((before ++ command :: rest).take before.length)).length, track⟩
      rw [List.take_left' rfl]
    | true =>
      rw [valid_cons_of_isInvalid h, Pen.missing_of_isInvalid h]
      rw [valid_cons_of_isInvalid h, Pen.apply_of_isInvalid h] at hrest
      rw [Pen.apply_of_isInvalid h]
      exact hrest

/-- **The steps of the valid commands do what the same steps do among the slots.** -/
theorem exists_valid {earlier : PerPaint String} {index : Nat} {pen : Pen α}
    {commands : List (Command α)} {steps : List (Step α)}
    (h : stepsFrom defaults earlier index pen commands = .ok steps) (earlier' : PerPaint String)
    (index' : Nat) :
    ∃ others, stepsFrom defaults earlier' index' pen (valid commands) = .ok others ∧
      List.Forall₂ Step.Alike (steps.filter (!·.command.isInvalid)) others := by
  induction commands generalizing earlier earlier' index index' pen steps with
  | nil =>
    cases h
    exact ⟨[], rfl, .nil⟩
  | cons command rest ih =>
    obtain ⟨step, more, rfl, hstep, hmore⟩ := stepsFrom_cons h
    have hcommand := congrArg Command.isInvalid hstep.command_eq
    cases hinvalid : command.isInvalid with
    | false =>
      obtain ⟨other, hother, halike⟩ := exists_stepOf_alike hstep earlier' index'
      obtain ⟨others, hothers, hrest⟩ := ih hmore other.style (index' + 1)
      rw [valid_cons hinvalid, List.filter_cons_of_pos (by simp [hcommand, hinvalid])]
      exact ⟨other :: others, bind_eq_ok.mpr ⟨other, hother,
        bind_eq_ok.mpr ⟨others, hothers, rfl⟩⟩, .cons halike hrest⟩
    | true =>
      rw [Pen.apply_of_isInvalid hinvalid] at hmore
      rw [valid_cons_of_isInvalid hinvalid,
        List.filter_cons_of_neg (by simp [hcommand, hinvalid])]
      exact ih hmore earlier' index'

/-- A command fails wherever it stands, if it does from the same pen. -/
theorem stepOf_error {earlier : PerPaint String} {index : Nat} {pen : Pen α} {command : Command α}
    {error : ColorError} (h : stepOf defaults earlier index pen command = .error error)
    (earlier' : PerPaint String) (index' : Nat) :
    stepOf defaults earlier' index' pen command = .error error := by
  refine bind_eq_error.mpr ?_
  rcases bind_eq_error.mp h with h | ⟨before, hbefore, h⟩
  · exact .inl h
  refine .inr ⟨before, hbefore, bind_eq_error.mpr ?_⟩
  rcases bind_eq_error.mp h with h | ⟨after, hafter, h⟩
  · exact .inl h
  refine .inr ⟨after, hafter, bind_eq_error.mpr ?_⟩
  rcases bind_eq_error.mp h with h | ⟨color, -, h⟩
  · exact .inl h
  · cases h

/-- A slot has a step where the styles in use have colours. -/
theorem exists_stepOf_of_isInvalid {pen : Pen α} {colors : PerPaint Rgba}
    (hcolors : (pen.resolved defaults).mapM Rgba.ofStyle = .ok colors) {command : Command α}
    (h : command.isInvalid = true) (earlier : PerPaint String) (index : Nat) :
    ∃ step, stepOf defaults earlier index pen command = .ok step := by
  cases command with
  | invalid items reason =>
    exact ⟨_, bind_eq_ok.mpr ⟨colors, hcolors, bind_eq_ok.mpr ⟨colors, hcolors,
      bind_eq_ok.mpr ⟨colors, hcolors, rfl⟩⟩⟩⟩
  | _ => cases h

/-- **A program fails as its valid commands do**, since no slot does. -/
theorem stepsFrom_error_valid {earlier : PerPaint String} {index : Nat} {pen : Pen α}
    {colors : PerPaint Rgba} (hcolors : (pen.resolved defaults).mapM Rgba.ofStyle = .ok colors)
    {commands : List (Command α)} {error : ColorError}
    (h : stepsFrom defaults earlier index pen commands = .error error) (earlier' : PerPaint String)
    (index' : Nat) : stepsFrom defaults earlier' index' pen (valid commands) = .error error := by
  induction commands generalizing earlier earlier' index index' pen colors with
  | nil => cases h
  | cons command rest ih =>
    cases hinvalid : command.isInvalid with
    | false =>
      rw [valid_cons hinvalid]
      refine bind_eq_error.mpr ?_
      rcases bind_eq_error.mp h with hstep | ⟨step, hstep, h⟩
      · exact .inl (stepOf_error hstep earlier' index')
      obtain hrest | ⟨more, -, h⟩ := bind_eq_error.mp h
      · have hfields := isStepOf_of_stepOf hstep
        obtain ⟨other, hother, -⟩ := exists_stepOf_alike hfields earlier' index'
        exact .inr ⟨other, hother, bind_eq_error.mpr (.inl (ih hfields.after_eq hrest _ _))⟩
      · cases h
    | true =>
      rw [valid_cons_of_isInvalid hinvalid]
      obtain ⟨step, hstep⟩ := exists_stepOf_of_isInvalid hcolors hinvalid earlier index
      rcases bind_eq_error.mp h with hstep' | ⟨step', -, h⟩
      · rw [hstep] at hstep'
        cases hstep'
      obtain hrest | ⟨more, -, h⟩ := bind_eq_error.mp h
      · rw [Pen.apply_of_isInvalid hinvalid] at hrest
        exact ih hcolors hrest earlier' index'
      · cases h

/-- The frame at the end is the one that the pen has come to. -/
theorem finalMatrix_stepsFrom {earlier : PerPaint String} {index : Nat} {pen : Pen α}
    {commands : List (Command α)} {steps : List (Step α)}
    (h : stepsFrom defaults earlier index pen commands = .ok steps) :
    (steps.getLast?.map (·.matrix)).getD pen.matrix = (pen.run commands).matrix := by
  induction commands generalizing earlier index pen steps with
  | nil =>
    cases h
    rfl
  | cons command rest ih =>
    obtain ⟨step, more, rfl, hstep, hmore⟩ := stepsFrom_cons h
    have hrest := ih hmore
    rw [← hstep.matrix_eq, Option.getD_map] at hrest
    rw [List.getLast?_cons]
    exact hrest

theorem finalMatrix_compile {commands : List (Command α)} {timeline : Timeline α}
    (h : compile defaults commands = .ok timeline) :
    timeline.finalMatrix = (Pen.start.run commands).matrix := by
  obtain ⟨steps, hsteps, h⟩ := bind_eq_ok.mp h
  cases h
  exact finalMatrix_stepsFrom hsteps

/-- So a program that has no timeline has none without its slots. -/
theorem compile_error_valid (hdefaults : ∀ paint, Rgba.isStyle (defaults.get paint) = true)
    {commands : List (Command α)} {error : ColorError}
    (h : compile defaults commands = .error error) :
    compile defaults (valid commands) = .error error := by
  obtain ⟨colors, hdefault⟩ := exists_colors hdefaults
  have hcolors : ((Pen.start : Pen α).resolved defaults).mapM Rgba.ofStyle = .ok colors := hdefault
  rcases bind_eq_error.mp h with h | ⟨_, -, h⟩
  · exact bind_eq_error.mpr (.inl (stepsFrom_error_valid hcolors h defaults 0))
  · cases h

/-- The timelines of a program and of its valid commands agree: they end in the same frame, warn of
the same restores, and the steps of the valid commands do the same; the steps of the slots do
nothing; and at the end the same calls are recorded, as far as the positions of the scalar reach. -/
structure AgreesOnValid (commands : List (Command α)) (timeline plain : Timeline α) : Prop where
  finalMatrix : timeline.finalMatrix = plain.finalMatrix
  warnings : timeline.warnings.map (StackWarning.amongValid commands) = plain.warnings
  steps : List.Forall₂ Step.Alike (timeline.steps.filter (!·.command.isInvalid)) plain.steps
  still : ∀ step ∈ timeline.steps, step.command.isInvalid = true → step.IsStill
  records : CountsTo α (max 1 commands.length : Nat) → ∀ (base : Affine α) (reverses : Bool),
    ∃ trace trace' recording,
      (timeline.render (.ok (ofInt timeline.length)) .forward reverses none).run
        (Recording.start base) = (.ok trace, recording) ∧
      (plain.render (.ok (ofInt plain.length)) .forward reverses none).run
        (Recording.start base) = (.ok trace', recording)

/-- Where a program has a timeline, so have its valid commands, and the two agree. -/
theorem exists_agreesOnValid {commands : List (Command α)} {timeline : Timeline α}
    (h : compile defaults commands = .ok timeline) :
    ∃ plain, compile defaults (valid commands) = .ok plain ∧
      AgreesOnValid commands timeline plain := by
  obtain ⟨steps, hsteps, htimeline⟩ := bind_eq_ok.mp h
  obtain rfl := Except.ok.inj htimeline
  obtain ⟨others, hothers, halike⟩ := exists_valid hsteps defaults 0
  have hplain : compile defaults (valid commands) =
      .ok ⟨others, warningsFrom 0 Pen.start (valid commands)⟩ :=
    bind_eq_ok.mpr ⟨others, hothers, rfl⟩
  refine ⟨_, hplain, ?_, (warningsFrom_valid [] Pen.start commands).symm, halike, ?_, ?_⟩
  · rw [finalMatrix_compile h, finalMatrix_compile hplain, Pen.run_valid]
  · intro step hmem hinvalid
    obtain ⟨_, _, _, hstep⟩ := exists_isStepOf hsteps step hmem
    exact Step.isStill hstep hinvalid
  · intro hcount base reverses
    have hlength : steps.length ≤ max 1 commands.length := by
      rw [length_stepsFrom hsteps]
      exact Nat.le_max_right ..
    have hlength' : others.length ≤ max 1 commands.length := by
      rw [length_stepsFrom hothers]
      exact (List.length_filter_le ..).trans (Nat.le_max_right ..)
    have hone : 1 ≤ max 1 commands.length := Nat.le_max_left ..
    obtain ⟨trace, hrun⟩ :=
      run_render_forward_end _ hcount hone (indices_compile h) hlength base reverses
    obtain ⟨trace', hrun'⟩ :=
      run_render_forward_end _ hcount hone (indices_compile hplain) hlength' base reverses
    refine ⟨trace, trace', _, hrun, ?_⟩
    rw [← Step.flatMap_finished_filter, Step.flatMap_finished_alike halike]
    exact hrun'

/-- **Refused slots do nothing.** Where a program has a timeline, so have its valid commands, and
the two agree; and if the default styles denote colours, they fail with the same errors. -/
theorem compile_valid (defaults : PerPaint String) (commands : List (Command α)) :
    (∀ timeline, compile defaults commands = .ok timeline →
      ∃ plain, compile defaults (valid commands) = .ok plain ∧
        AgreesOnValid commands timeline plain) ∧
    ((∀ paint, Rgba.isStyle (defaults.get paint) = true) → ∀ error,
      compile defaults commands = .error error ↔
        compile defaults (valid commands) = .error error) := by
  refine ⟨fun timeline => exists_agreesOnValid, fun hdefaults error =>
    ⟨compile_error_valid hdefaults, fun h => ?_⟩⟩
  cases hcompile : compile defaults commands with
  | error other => exact (compile_error_valid hdefaults hcompile).symm.trans h
  | ok timeline =>
    obtain ⟨plain, hplain, -⟩ := exists_agreesOnValid hcompile
    rw [hplain] at h
    cases h

end Timeline

end

/-- A program with a slot before the first command, inside a save, between a colour and the figure
that it is for, and behind the last one. -/
def slottedProgram : List (Command Float) := [
  .invalid [.text "spin", .int 1] "unknown command",
  .restore,
  .move (.rotate (.int 30)),
  .save,
  .style .fill "red",
  .invalid [.text "translate"] "missing arguments",
  .move (.translate (.int 10) (.real 0.5)),
  .draw .fill (.rect (.int 0) (.int 0) (.int 4) (.int 4)) (some "#00ff0080"),
  .invalid [] "not a name",
  .restore,
  .restore,
  .draw .stroke (.rect (.int 0) (.int 0) (.int 4) (.int 4)) none,
  .invalid [.text "restore", .int 1] "too many arguments"]

/-- A slot before a style that is no colour. -/
def colorlessProgram : List (Command Float) :=
  [.invalid [] "not a name", .style .stroke "no colour"]

/-- Doubles count as far as such a program goes, so at its end the same calls are recorded. -/
theorem compile_valid_slotted :
    (∃ timeline plain,
      Timeline.compile ⟨"black", "#888"⟩ slottedProgram = .ok timeline ∧
      Timeline.compile ⟨"black", "#888"⟩ (valid slottedProgram) = .ok plain ∧
      (valid slottedProgram).length = 9 ∧
      Scalar.CountsTo Float (max 1 slottedProgram.length : Nat) ∧
      Timeline.AgreesOnValid slottedProgram timeline plain) ∧
    (∀ paint, Rgba.isStyle ((⟨"black", "#888"⟩ : PerPaint String).get paint) = true) ∧
    ∃ error, Timeline.compile ⟨"black", "#888"⟩ colorlessProgram = .error error ∧
      Timeline.compile ⟨"black", "#888"⟩ (valid colorlessProgram) = .error error := by
  refine ⟨?_, isStyle_defaults, ?_⟩
  · have hcolors : ∀ command ∈ slottedProgram, ∀ style ∈ command.colors,
        Rgba.isStyle style = true := by decide +kernel
    obtain ⟨timeline, hcompile, -⟩ := Timeline.exists_compile isStyle_defaults hcolors
    obtain ⟨plain, hplain, hagrees⟩ := (Timeline.compile_valid _ _).1 timeline hcompile
    exact ⟨timeline, plain, hcompile, hplain, rfl, Binary64.countsTo.mono (by decide), hagrees⟩
  · have hfails : (Timeline.compile ⟨"black", "#888"⟩ colorlessProgram).toBool = false := by
      decide +kernel
    cases hcompile : Timeline.compile ⟨"black", "#888"⟩ colorlessProgram with
    | error error =>
      exact ⟨error, rfl, ((Timeline.compile_valid _ _).2 isStyle_defaults error).mp hcompile⟩
    | ok timeline =>
      rw [hcompile] at hfails
      cases hfails

end CanvasScript
