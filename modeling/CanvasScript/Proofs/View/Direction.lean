import CanvasScript.CommandLine.Session
import CanvasScript.Proofs.Command.Decode
import CanvasScript.Proofs.Timeline.Compile
import CanvasScript.Proofs.View.Redraw

/-!
# No way back over saves and restores

A program that saves or restores is not played backward. This is looked at three times: in the
instructions before they are decoded (`has_stack_commands`), in the steps when a view is made or
turned (`check_direction`), and in the steps again when it is drawn (`render`). The first look lets
nothing through that the second would refuse, and the second nothing that the third would.

* `Rendering.Undirected`: a rendering may fail, but not for its direction.
* `View.Directed timeline view`: a view shows a timeline in a direction that is allowed.
* `View.accepted timeline history`: the directions of a history that are not refused, of which
  `View.directionAfter` is the last.

Results:
* `Timeline.isStack_of_hasStack`: **a timeline with saves or restores is that of a program which was
  seen to have some**, whatever became of its other instructions.
* `CommandLine.Session.openView_of_compile`: so a program that is not refused at sight has a view as
  soon as it has a timeline.
* `View.direction_runAll`: **a view goes in the direction that was accepted last**.
* `View.Directed.undirected_draw`: no drawing of such a view fails for its direction.
* `View.backward_gated`: the three looks together.
-/

namespace CanvasScript

open Scalar

/-! ## Instructions and steps -/

section

variable {α : Type} [Written α]

namespace Command

variable {instruction : Instruction α} {instructions : List (Instruction α)} {command : Command α}
  {decoded : Decoded α}

/-- The command of an instruction saves or restores just when the instruction has that name. -/
theorem isStack_decode (h : decode instruction = .ok command) :
    command.isStack = instruction.isStack := by
  obtain ⟨kind, values, arguments, hitems, -, -, rfl⟩ := decode_eq_ok.mp h
  unfold Instruction.isStack
  rw [hitems]
  cases kind with
  | style paint | rect paint | triangle paint | arc paint => cases paint <;> rfl
  | _ => rfl

/-- A refused instruction keeps its place with a command that neither saves nor restores. -/
theorem isStack_of_decodeSlot {index : Nat} {error : Option (CommandError α)}
    (h : decodeSlot index instruction = .ok (command, error)) (hstack : command.isStack = true) :
    instruction.isStack = true := by
  unfold decodeSlot at h
  split at h
  · rename_i hdecode
    cases h
    rw [← isStack_decode hdecode]
    exact hstack
  · cases h
    cases hstack
  · cases h

theorem any_isStack_of_decodeFrom {index : Nat} (h : decodeFrom index instructions = .ok decoded)
    (hstack : decoded.commands.any isStack = true) :
    instructions.any Instruction.isStack = true := by
  induction instructions generalizing index decoded with
  | nil =>
    cases h
    cases hstack
  | cons instruction rest ih =>
    obtain ⟨⟨command, error⟩, hslot, h⟩ := bind_eq_ok.mp h
    obtain ⟨more, hmore, h⟩ := bind_eq_ok.mp h
    cases h
    rw [List.any_cons, Bool.or_eq_true] at hstack ⊢
    exact hstack.imp (isStack_of_decodeSlot hslot) (ih hmore)

theorem any_isStack_of_decodeAll {policy : Policy}
    (h : decodeAll policy instructions = .ok decoded)
    (hstack : decoded.commands.any isStack = true) :
    instructions.any Instruction.isStack = true := by
  unfold decodeAll at h
  split at h
  · cases h
  · rename_i hdecode
    split at h
    · cases h
    · cases h
      exact any_isStack_of_decodeFrom hdecode hstack

end Command

namespace Timeline

variable {timeline : Timeline α}

/-- A timeline has the saves and restores of its commands. -/
theorem hasStack_ofCommands {defaults : PerPaint (Value α)} {commands : List (Command α)}
    (h : ofCommands defaults commands = .ok timeline) :
    timeline.hasStack = commands.any Command.isStack := by
  unfold ofCommands at h
  split at h
  · rename_i hempty
    cases h
    rw [List.isEmpty_iff.mp hempty]
    rfl
  · obtain ⟨styles, -, h⟩ := bind_eq_ok.mp h
    obtain ⟨steps, hsteps, h⟩ := bind_eq_ok.mp h
    cases h
    rw [← commands_stepsFrom hsteps, List.any_map]
    rfl

/-- **A timeline with saves or restores is that of a program which was seen to have some.** -/
theorem isStack_of_hasStack {policy : Policy} {defaults : PerPaint (Value α)}
    {instructions : List (Instruction α)} {errors : List (CommandError α)}
    (h : ofProgram policy defaults instructions = .ok (timeline, errors))
    (hstack : timeline.hasStack = true) : instructions.any Instruction.isStack = true := by
  obtain ⟨decoded, hdecoded, h⟩ := bind_eq_ok.mp h
  obtain ⟨timeline', hcompiled, h⟩ := bind_eq_ok.mp h
  cases h
  rw [hasStack_ofCommands (mapError_eq_ok.mp hcompiled)] at hstack
  exact Command.any_isStack_of_decodeAll (mapError_eq_ok.mp hdecoded) hstack

/-- So one where none were seen can be played backward. -/
theorem supportsBackward_of_not_isStack {policy : Policy} {defaults : PerPaint (Value α)}
    {instructions : List (Instruction α)} {errors : List (CommandError α)}
    (hnone : instructions.any Instruction.isStack = false)
    (h : ofProgram policy defaults instructions = .ok (timeline, errors)) :
    timeline.supportsBackward = true := by
  unfold supportsBackward
  rw [Bool.not_eq_true', ← Bool.not_eq_true]
  intro hstack
  rw [isStack_of_hasStack h hstack] at hnone
  cases hnone

end Timeline

end

/-! ## Directions that are allowed -/

namespace Timeline

variable {α : Type} {timeline : Timeline α} {direction : Direction}

theorem allowed_eq_ok :
    timeline.allowed direction = .ok direction ↔
      (timeline.hasStack = true → direction = .forward) := by
  unfold allowed
  cases direction with
  | forward => simp
  | backward => simp

/-- A value is accepted when it stands for a direction that is allowed. -/
theorem checkDirection_eq_ok [Written α] {v : Value α} :
    timeline.checkDirection v = .ok direction ↔
      Direction.ofValue? v = some direction ∧ timeline.allowed direction = .ok direction := by
  unfold checkDirection
  cases Direction.ofValue? v with
  | none => simp
  | some direction' =>
    rw [Option.some.injEq]
    constructor
    · intro h
      obtain rfl := eq_of_allowed h
      exact ⟨rfl, h⟩
    · rintro ⟨rfl, h⟩
      exact h

end Timeline

/-! ## Sessions -/

namespace CommandLine.Session

variable {α : Type} [Written α] {settings : Settings α} {policy : Policy} {direction : Direction}
  {rows : Rows α} {actions actions' : List Action}

theorem ofProgram_of_compile {timeline : Timeline α}
    (h : (compile settings policy rows) actions = (.ok timeline, actions')) :
    ∃ errors, Timeline.ofProgram policy (settings.defaults.map Value.text) (rows.map .row) =
      .ok (timeline, errors) := by
  cases hprogram :
      Timeline.ofProgram policy (settings.defaults.map Value.text) (rows.map .row) with
  | ok result =>
    simp only [compile, hprogram] at h
    cases h
    exact ⟨result.2, rfl⟩
  | error error =>
    -- what cannot be compiled ends the session, after the errors of the program are said
    simp only [compile, hprogram] at h
    match error with
    | .program (.invalid errors) =>
      obtain ⟨_, _, -, h⟩ := run_bind_eq_ok.mp h
      cases h
    | .program (.unknownPolicy _) | .program (.arithmetic _) | .color _ => cases h

theorem openView_refused
    (h : direction = .backward ∧ (rows.map Instruction.row).any Instruction.isStack = true) :
    (openView settings policy direction rows) actions =
      (.error (.exit 2), actions ++ [.say backwardText]) := by
  unfold openView
  rw [if_pos (by simpa using h)]
  rfl

/-- **A program that is not refused at sight has a view as soon as it has a timeline.** -/
theorem openView_of_compile
    (h : ¬ (direction = .backward ∧ (rows.map Instruction.row).any Instruction.isStack = true))
    {timeline : Timeline α}
    (hcompile : (compile settings policy rows) actions = (.ok timeline, actions')) :
    ∃ view, viewOf settings timeline direction false = .ok view ∧
      (openView settings policy direction rows) actions = (.ok view, actions') := by
  obtain ⟨errors, hprogram⟩ := ofProgram_of_compile hcompile
  have hallowed : timeline.allowed direction = .ok direction := by
    rw [Timeline.allowed_eq_ok]
    intro hstack
    cases direction with
    | forward => rfl
    | backward => exact absurd ⟨rfl, Timeline.isStack_of_hasStack hprogram hstack⟩ h
  have hview : viewOf settings timeline direction false = .ok {
      timeline, settings, direction, showsFinal := false, lastTrace := Trace.empty .forward
      surface := Raster.start settings.canvasSize settings.canvasSize Rgba.white
        Affine.identity } := by
    unfold viewOf View.ofDirection
    rw [hallowed]
    rfl
  refine ⟨_, hview, ?_⟩
  unfold openView
  rw [if_neg (by simpa using h)]
  refine (run_bind_ok hcompile).trans ?_
  rw [hview]
  rfl

end CommandLine.Session

/-! ## Renderings -/

section

variable {α σ β γ : Type}

/-- The direction is not what is wrong. -/
def RenderError.IsUndirected (error : RenderError) : Prop := ∀ e, error ≠ .direction e

/-- A rendering that does not fail for its direction. -/
def Rendering.Undirected (x : Rendering σ β) : Prop :=
  ∀ s, FailsWith RenderError.IsUndirected (x s).1

namespace Rendering.Undirected

/-- A drawing knows of no direction. -/
theorem rendering (drawing : Drawing σ β) : Undirected drawing.rendering :=
  fun s => FailsWith.mapError (fun _ _ h => nomatch h) (drawing s).1

theorem bind {x : Rendering σ β} {f : β → Rendering σ γ} (hx : Undirected x)
    (hf : ∀ b, Undirected (f b)) : Undirected (x >>= f) := by
  intro s error herror
  rcases hrun : x s with ⟨e | b, between⟩
  · rw [run_bind_error hrun] at herror
    cases herror
    exact hx s error (congrArg Prod.fst hrun)
  · rw [run_bind_ok hrun] at herror
    exact hf b between error herror

theorem ite {p : Prop} [Decidable p] {x y : Rendering σ β} (hx : Undirected x)
    (hy : Undirected y) : Undirected (if p then x else y) := by
  split
  · exact hx
  · exact hy

theorem framed [Surface α σ] {x : Rendering σ β} (hx : Undirected x) :
    Undirected (Drawing.framed x) :=
  fun _ => hx _

variable [Scalar α] [Surface α σ] {timeline : Timeline α} {direction : Direction}

/-- A timeline is traced in a direction that is allowed. -/
theorem trace (h : timeline.allowed direction = .ok direction) (position : Reading α)
    (reverses : Bool) :
    FailsWith RenderError.IsUndirected (timeline.trace position direction reverses) := by
  unfold Timeline.trace
  rw [h]
  refine FailsWith.bind (FailsWith.ok direction) fun _ => ?_
  split
  · exact FailsWith.ok _
  · exact (FailsWith.mapError (fun _ _ h => nomatch h) position).bind fun _ => FailsWith.ok _

theorem render (h : timeline.allowed direction = .ok direction) (position : Reading α)
    (reverses : Bool) (marker : Option (Drawing σ Unit)) :
    Undirected (timeline.render position direction reverses marker) :=
  bind (fun _ => trace h position reverses) fun _ =>
    bind (rendering _) fun _ _ => FailsWith.ok _

theorem picture (h : timeline.allowed direction = .ok direction) (settings : Settings α)
    (showsFinal : Bool) (position : Reading α) :
    Undirected (View.picture timeline settings showsFinal direction position : Rendering σ _) := by
  have hshown : timeline.allowed (if showsFinal then .forward else direction) =
      .ok (if showsFinal then .forward else direction) := by
    cases showsFinal with
    | false => exact h
    | true => exact Timeline.allowed_eq_ok.mpr fun _ => rfl
  have hrender := fun marker : Option (Drawing σ Unit) =>
    render hshown position (settings.reverses && !showsFinal) marker
  refine bind (rendering _) fun _ => bind (rendering _) fun _ => framed ?_
  refine bind (rendering _) fun _ => bind (rendering _) fun _ => ?_
  exact ite (bind (rendering _) fun _ => hrender _) (hrender _)

end Rendering.Undirected

end

/-! ## Histories -/

namespace View

section

variable {α σ : Type} [Scalar α]

/-- A view shows a timeline in a direction that is allowed. -/
structure Directed (timeline : Timeline α) (view : View α σ) : Prop where
  timeline_eq : view.timeline = timeline
  allowed : timeline.allowed view.direction = .ok view.direction

variable [Surface α σ] {timeline : Timeline α} {view : View α σ}

/-- **No drawing of such a view fails for its direction.** -/
theorem Directed.undirected_draw (h : Directed timeline view) (position : Reading α)
    (e : DirectionError) : ((draw position) view).1 ≠ .error (.direction e) := by
  intro herror
  rw [run_draw] at herror
  have hallowed : view.timeline.allowed view.direction = .ok view.direction := by
    rw [h.timeline_eq]
    exact h.allowed
  exact Rendering.Undirected.picture hallowed _ _ position _ _ herror e rfl

end

section

variable {α σ : Type} [Written α]

/-- The directions of a history that are not refused. -/
def accepted (timeline : Timeline α) (history : List (Event α)) : List Direction :=
  history.filterMap fun
    | .draw _ => none
    | .turn direction => (timeline.checkDirection direction).toOption

/-- The direction in which a history leaves a view that went in another one before. -/
def directionAfter (timeline : Timeline α) (direction : Direction) (history : List (Event α)) :
    Direction :=
  (accepted timeline history).getLast?.getD direction

variable {timeline : Timeline α} {view : View α σ}

/-- A new view goes in a direction that is allowed. -/
theorem directed_of_ofValue {settings : Settings α} {surface : σ} {direction : Value α}
    {showsFinal : Bool} (h : ofValue timeline settings surface direction showsFinal = .ok view) :
    Directed timeline view := by
  obtain ⟨_, -, h⟩ := bind_eq_ok.mp h
  obtain ⟨direction', hallowed, h⟩ := bind_eq_ok.mp h
  cases h
  exact ⟨rfl, Timeline.eq_of_allowed hallowed ▸ hallowed⟩

variable [Surface α σ]

/-- An event keeps the timeline, and the direction unless it is a turn that is accepted. -/
theorem run_event (event : Event α) (view : View α σ) :
    (event.run view).timeline = view.timeline ∧
      (event.run view).direction = directionAfter view.timeline view.direction [event] := by
  cases event with
  | draw position =>
    show ((View.draw position) view).2.timeline = _ ∧ ((View.draw position) view).2.direction = _
    rw [run_draw]
    exact ⟨rfl, rfl⟩
  | turn direction =>
    show ((view.turned direction).toOption.getD view).timeline = _ ∧
      ((view.turned direction).toOption.getD view).direction = _
    unfold turned directionAfter accepted
    cases hcheck : view.timeline.checkDirection direction with
    | error e => simp [hcheck, Except.map, Except.toOption]
    | ok direction' => simp [hcheck, Except.map, Except.toOption]

theorem directionAfter_cons (timeline : Timeline α) (direction : Direction) (event : Event α)
    (history : List (Event α)) :
    directionAfter timeline direction (event :: history) =
      directionAfter timeline (directionAfter timeline direction [event]) history := by
  have happend : accepted timeline (event :: history) =
      accepted timeline [event] ++ accepted timeline history := by
    unfold accepted
    rw [← List.filterMap_append]
    rfl
  unfold directionAfter
  rw [happend, List.getLast?_append, Option.getD_or]

theorem allowed_of_mem_accepted {direction : Direction} {history : List (Event α)}
    (h : direction ∈ accepted timeline history) : timeline.allowed direction = .ok direction := by
  obtain ⟨event, -, hevent⟩ := List.mem_filterMap.mp h
  cases event with
  | draw position => cases hevent
  | turn v => exact (Timeline.checkDirection_eq_ok.mp (toOption_eq_some.mp hevent)).2

theorem allowed_directionAfter {direction : Direction}
    (h : timeline.allowed direction = .ok direction) (history : List (Event α)) :
    timeline.allowed (directionAfter timeline direction history) =
      .ok (directionAfter timeline direction history) := by
  unfold directionAfter
  cases hlast : (accepted timeline history).getLast? with
  | none => exact h
  | some last => exact allowed_of_mem_accepted (List.mem_of_getLast? hlast)

/-- **A view goes in the direction that was accepted last**, and keeps its timeline. -/
theorem direction_runAll (history : List (Event α)) (view : View α σ) :
    (runAll history view).timeline = view.timeline ∧
      (runAll history view).direction = directionAfter view.timeline view.direction history := by
  induction history generalizing view with
  | nil => exact ⟨rfl, rfl⟩
  | cons event rest ih =>
    obtain ⟨htimeline, hdirection⟩ := run_event event view
    obtain ⟨htimeline', hdirection'⟩ := ih (event.run view)
    rw [htimeline, hdirection, ← directionAfter_cons] at hdirection'
    exact ⟨htimeline'.trans htimeline, hdirection'⟩

/-- So its direction stays one that is allowed. -/
theorem Directed.runAll (h : Directed timeline view) (history : List (Event α)) :
    Directed timeline (View.runAll history view) := by
  obtain ⟨htimeline, hdirection⟩ := direction_runAll history view
  refine ⟨htimeline.trans h.timeline_eq, ?_⟩
  rw [hdirection, h.timeline_eq]
  exact allowed_directionAfter h.allowed history

end

/-! ## The three looks together -/

open CommandLine CommandLine.Session

section

variable (α σ : Type) [Written α] [Surface α σ]

/-- **The three looks agree.** A program without a save or a restore in sight gives timelines that
can be played backward, so that a session which does not end at sight has its view. And a view of a
timeline that saves or restores goes forward after every history: a turn that is refused leaves the
direction alone, and no drawing fails for it. -/
theorem backward_gated :
    (∀ (policy : Policy) (defaults : PerPaint (Value α)) (instructions : List (Instruction α))
      (timeline : Timeline α) (errors : List (CommandError α)),
      instructions.any Instruction.isStack = false →
      Timeline.ofProgram policy defaults instructions = .ok (timeline, errors) →
      timeline.supportsBackward = true) ∧
    (∀ (settings : Settings α) (policy : Policy) (direction : Direction) (rows : Rows α)
      (actions : List Action),
      if direction = .backward ∧ (rows.map Instruction.row).any Instruction.isStack = true then
        (openView settings policy direction rows) actions =
          (.error (.exit 2), actions ++ [.say backwardText])
      else ∀ timeline actions',
        (compile settings policy rows) actions = (.ok timeline, actions') →
        ∃ view, viewOf settings timeline direction false = .ok view ∧
          (openView settings policy direction rows) actions = (.ok view, actions')) ∧
    ∀ (timeline : Timeline α) (settings : Settings α) (surface : σ) (direction : Value α)
      (showsFinal : Bool) (view : View α σ) (history : List (Event α)),
      ofValue timeline settings surface direction showsFinal = .ok view →
      (runAll history view).direction = directionAfter timeline view.direction history ∧
      (timeline.hasStack = true → (runAll history view).direction = .forward) ∧
      ∀ (position : Reading α) (e : DirectionError),
        ((draw position) (runAll history view)).1 ≠ .error (.direction e) := by
  refine ⟨fun _ _ _ _ _ => Timeline.supportsBackward_of_not_isStack, ?_, ?_⟩
  · intro settings policy direction rows actions
    split
    · rename_i h
      exact openView_refused h
    · rename_i h
      exact fun _ _ => openView_of_compile h
  · intro timeline settings surface direction showsFinal view history hview
    have hdirected := Directed.runAll (directed_of_ofValue hview) history
    refine ⟨?_, Timeline.allowed_eq_ok.mp hdirected.allowed, hdirected.undirected_draw⟩
    rw [(direction_runAll history view).2, (directed_of_ofValue hview).timeline_eq]

end

/-- A program that saves and restores. -/
def stackRows : Rows Float := [
  [.text "save"],
  [.text "fillRect", .number (.int 0), .number (.int 0), .number (.int 1), .number (.int 1)],
  [.text "restore"]]

/-- A program of one motion, beside instructions that are refused. -/
def plainRows : Rows Float := [
  [.text "saves"],
  [.text "translate", .number (.int 1), .number (.int 0)],
  []]

/-- A program that is refused at sight, and one that is shown backward. A view of the first one is
turned back in vain between drawings, some of which fail. -/
theorem backward_gated_rows :
    ∃ (timeline : Timeline Float) (plain : Timeline Float) (errors : List (CommandError Float))
      (view : View Float (Recording Float)) (screen : Screen Float),
      Timeline.ofProgram .skip (smallSettings.defaults.map Value.text) (stackRows.map .row) =
        .ok (timeline, []) ∧
      timeline.hasStack = true ∧
      (openView smallSettings .skip .backward stackRows) [] =
        (.error (.exit 2), [.say backwardText]) ∧
      Timeline.ofProgram .skip (smallSettings.defaults.map Value.text) (plainRows.map .row) =
        .ok (plain, errors) ∧
      errors.length = 2 ∧ plain.supportsBackward = true ∧
      (openView smallSettings .skip .backward plainRows) [] = (.ok screen, []) ∧
      ofValue timeline smallSettings (Recording.start Affine.identity) (.number (.int 1)) false =
        .ok view ∧
      (runAll mixedHistory view).direction = .forward ∧
      ∀ (position : Reading Float) (e : DirectionError),
        ((draw position) (runAll mixedHistory view)).1 ≠ .error (.direction e) := by
  have hmade : ((Timeline.ofProgram .skip (smallSettings.defaults.map Value.text)
        (stackRows.map .row)).toOption.bind fun made =>
      (ofValue made.1 smallSettings (Recording.start Affine.identity) (.number (.int 1))
        false).toOption.map fun _ : View Float (Recording Float) =>
          (made.1.hasStack, made.2.isEmpty)) = some (true, true) := by
    decide +kernel
  have hplain : ((Timeline.ofProgram .skip (smallSettings.defaults.map Value.text)
      (plainRows.map .row)).toOption.map fun made => made.2.length) = some 2 := by
    decide +kernel
  obtain ⟨⟨timeline, errors⟩, hprogram, hmade⟩ := Option.bind_eq_some_iff.mp hmade
  obtain ⟨view, hview, hmade⟩ := Option.map_eq_some_iff.mp hmade
  rw [Prod.mk.injEq, List.isEmpty_iff] at hmade
  obtain ⟨hstack, rfl⟩ := hmade
  obtain ⟨⟨plain, refused⟩, hother, hlength⟩ := Option.map_eq_some_iff.mp hplain
  rw [toOption_eq_some] at hprogram hview hother
  obtain ⟨hsupports, hsessions, hhistories⟩ := backward_gated Float (Recording Float)
  obtain ⟨screen, -, hscreen⟩ : ∃ screen, _ ∧ _ := by
    have hsession := hsessions smallSettings .skip .backward plainRows []
    rw [if_neg (by decide)] at hsession
    refine hsession plain [] ?_
    unfold compile
    rw [hother]
    rfl
  have hseen := hsessions smallSettings .skip .backward stackRows []
  rw [if_pos (by decide)] at hseen
  obtain ⟨-, hforward, hdraw⟩ := hhistories _ _ _ _ _ _ mixedHistory hview
  exact ⟨timeline, plain, refused, view, screen, hprogram, hstack, hseen, hother, hlength,
    hsupports _ _ _ _ _ (by decide) hother, hscreen, hview, hforward hstack, hdraw⟩

end View

end CanvasScript
