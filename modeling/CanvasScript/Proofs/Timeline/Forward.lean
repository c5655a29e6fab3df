import CanvasScript.Proofs.Binary64.Integer
import CanvasScript.Proofs.Timeline.PlainCanvas

/-!
# Forward rendering

Forward (`_render_nested`), a timeline at an integer position shows what its canvas shows after as
many commands.

* `begun_ofInt`: at an integer position every step before it is finished, and no other has begun.
* `drawForward_ofInt`: so what is drawn is what those steps draw when they are finished.
* `render_forward`: **forward rendering of a decoded program is the canvas of its first commands**,
  whatever they save and restore.

No law of frames is used, so doubles are in scope as far as they count the steps.
-/

namespace CanvasScript

open Scalar

variable {α : Type} [Scalar α]

namespace Step

/-- At an integer position a step is finished or has not begun. -/
theorem forwardAmount_ofInt {n : Nat} (hcount : CountsTo α n) (hn : 1 ≤ n) {k : Nat} (hk : k ≤ n)
    (step : Step α) (hindex : step.index ≤ n) :
    step.forwardAmount (ofInt k) = if step.index < k then (one : α) else zero := by
  unfold forwardAmount
  have hlt : (ofInt k : α) < ofInt step.index ↔ (k : Int) < step.index :=
    hcount.lt_iff (by omega) (by omega) (by omega) (by omega)
  by_cases h : k < step.index
  · rw [if_pos (hlt.mpr (by omega)), if_neg (by omega)]
  · rw [if_neg (fun hcontra => h (by have := hlt.mp hcontra; omega)),
      hcount.sub (by omega) (by omega) (by omega),
      hcount.least_one (by omega) (by omega) (by omega)]
    by_cases hkey : step.index < k
    · rw [if_pos hkey, if_neg (by omega)]
    · rw [if_neg hkey, if_pos (by omega)]

end Step

namespace Timeline

/-- **At an integer position the steps before it are finished, and no other has begun.** -/
theorem begun_ofInt {n : Nat} (hcount : CountsTo α n) (hn : 1 ≤ n) {k : Nat} (hk : k ≤ n) :
    ∀ {steps : List (Step α)} (first : Nat),
      steps.map (·.index) = List.range' first steps.length → first + steps.length ≤ n →
      begun steps (ofInt k : α) = (steps.take (k - first)).map (·, one)
  | [], _, _, _ => by rw [List.take_nil]; rfl
  | step :: rest, first, hindices, hlength => by
    obtain ⟨hhead, hrest⟩ := List.cons.inj hindices
    have hindex : step.index = first := hhead
    rw [List.length_cons] at hlength
    have hbegun := begun_ofInt hcount hn hk (first + 1) hrest (by omega)
    have hamount := step.forwardAmount_ofInt hcount hn hk (by omega)
    have hcons : begun (step :: rest) (ofInt k : α) =
        if zero < step.forwardAmount (ofInt k) then
          (step, step.forwardAmount (ofInt k)) :: begun rest (ofInt k)
        else begun rest (ofInt k) := by
      unfold begun
      rw [List.map_cons, List.filter_cons]
      simp only [decide_eq_true_eq]
    rw [hcons, hamount, hbegun]
    by_cases h : step.index < k
    · obtain ⟨j, hj⟩ : ∃ j, k - first = j + 1 := ⟨k - first - 1, by omega⟩
      rw [if_pos h, if_pos (hcount.zero_lt_one (by omega)), hj, List.take_succ_cons,
        show k - (first + 1) = j by omega]
      rfl
    · rw [if_neg h, if_neg (hcount.not_zero_lt_zero (by omega)),
        show k - first = 0 by omega, show k - (first + 1) = 0 by omega]
      rfl

/-- **The steps that have begun add what they draw**, each in a frame of its own. -/
theorem run_begun (steps : List (Step α)) (position : α) (recording : Recording α) :
    ((begun steps position).forM fun entry => entry.1.within entry.2 (entry.1.draw entry.2))
        recording = (.ok (), recording.append ((begun steps position).flatMap fun entry =>
        entry.1.callsIn entry.2
          (recording.frame.transform * (entry.1.progress entry.2).matrix))) :=
  Recording.run_forM
    (fun entry : Step α × α => entry.1.within entry.2 (entry.1.draw entry.2))
    (fun entry : Step α × α => entry.1.callsIn entry.2
      (recording.frame.transform * (entry.1.progress entry.2).matrix))
    (fun entry recording' (hframe : recording'.frame = recording.frame) => by
      rw [entry.1.run_within entry.2 recording', hframe])
    (begun steps position) recording rfl

/-- Without a marker forward drawing adds nothing else. -/
theorem run_drawForward (steps : List (Step α)) (position : α) (recording : Recording α) :
    (drawForward steps position none) recording =
      (.ok (), recording.append ((begun steps position).flatMap fun entry =>
        entry.1.callsIn entry.2
          (recording.frame.transform * (entry.1.progress entry.2).matrix))) :=
  (run_bind_ok (run_begun steps position recording)).trans rfl

/-- **Forward drawing at an integer position adds what the finished steps draw.** -/
theorem drawForward_ofInt {n : Nat} (hcount : CountsTo α n) (hn : 1 ≤ n) {steps : List (Step α)}
    (hindices : steps.map (·.index) = List.range' 0 steps.length) (hlength : steps.length ≤ n)
    {k : Nat} (hk : k ≤ n) (base : Affine α) :
    (drawForward steps (ofInt k) none) (Recording.start base) =
      (.ok (), (Recording.start base).append ((steps.take k).flatMap (·.finished base))) := by
  rw [run_drawForward, begun_ofInt hcount hn hk 0 hindices (by omega), List.flatMap_map]
  rfl

omit [Scalar α] in
/-- Every timeline can be played forward. -/
theorem allowed_forward (timeline : Timeline α) : timeline.allowed .forward = .ok .forward :=
  if_neg fun h => nomatch h.1

/-- Positions of forward playback count from the start. -/
theorem effectivePosition_forward (p : α) (n : Nat) (reverses : Bool) :
    effectivePosition p n (reverses && decide (Direction.forward = .backward)) =
      clampPosition p n :=
  congrArg (effectivePosition p n) (Bool.and_false reverses)

/-- An empty timeline draws nothing, and any other one what its direction says. -/
theorem run_draw {timeline : Timeline α} {position : α} {direction : Direction}
    {recording recording' : Recording α}
    (h : (match direction with
      | .forward => drawForward timeline.steps position none
      | .backward => drawBackward timeline.steps position none : Drawing (Recording α) Unit)
        recording = (.ok (), recording')) :
    (timeline.draw (Trace.ofSteps timeline.steps position direction) none) recording =
      (.ok (), recording') := by
  unfold Timeline.draw
  split
  · rename_i hempty
    rw [List.isEmpty_iff.mp hempty] at h
    cases direction
    · exact h
    · exact h
  · exact h

/-- In an allowed direction there is a trace at every position. -/
theorem exists_trace {timeline : Timeline α} {direction : Direction}
    (hallowed : timeline.allowed direction = .ok direction) (p : α) (reverses : Bool) :
    ∃ trace, timeline.trace (.ok p) direction reverses = .ok trace ∧
      (trace = Trace.empty direction ∧ timeline.steps = [] ∨
        trace = Trace.ofSteps timeline.steps (effectivePosition p timeline.length
          (reverses && decide (direction = .backward))) direction) := by
  unfold Timeline.trace
  rw [hallowed]
  by_cases hempty : timeline.steps.isEmpty = true
  · exact ⟨Trace.empty direction, if_pos hempty, .inl ⟨rfl, List.isEmpty_iff.mp hempty⟩⟩
  · exact ⟨_, if_neg hempty, .inr rfl⟩

/-- **A rendering with a trace draws what the trace shows.** -/
theorem render_of_trace {σ : Type} [Surface α σ] {timeline : Timeline α} {position : Reading α}
    {direction : Direction} {reverses : Bool} {trace : Trace α}
    (htrace : timeline.trace position direction reverses = .ok trace)
    (marker : Option (Drawing σ Unit)) :
    timeline.render position direction reverses marker = (do
      (timeline.draw trace marker).rendering
      return trace) := by
  unfold Timeline.render
  rw [htrace]
  rfl

/-- So it succeeds where that drawing does. -/
theorem run_render_of_trace {timeline : Timeline α} {p : α} {direction : Direction}
    {reverses : Bool} {trace : Trace α}
    (htrace : timeline.trace (.ok p) direction reverses = .ok trace)
    {recording recording' : Recording α}
    (hdraw : (timeline.draw trace none) recording = (.ok (), recording')) :
    (timeline.render (.ok p) direction reverses none).run recording = (.ok trace, recording') := by
  rw [render_of_trace htrace, run_rendering_return, hdraw]
  rfl

/-- **A rendering in an allowed direction draws at its effective position.** -/
theorem run_render {timeline : Timeline α} {p position : α} {direction : Direction}
    {reverses : Bool} (hallowed : timeline.allowed direction = .ok direction)
    (hposition : effectivePosition p timeline.length
      (reverses && decide (direction = .backward)) = position)
    {recording recording' : Recording α}
    (hdraw : (timeline.draw (Trace.ofSteps timeline.steps position direction) none) recording =
      (.ok (), recording')) :
    ∃ trace, (timeline.render (.ok p) direction reverses none).run recording =
      (.ok trace, recording') := by
  obtain ⟨trace, htrace, hcases⟩ := exists_trace hallowed p reverses
  refine ⟨trace, run_render_of_trace htrace ?_⟩
  rcases hcases with ⟨rfl, hempty⟩ | rfl
  · unfold Timeline.draw at hdraw ⊢
    rw [hempty] at hdraw ⊢
    exact hdraw
  · rwa [hposition]

theorem clampPosition_ofInt {n : Nat} (hcount : CountsTo α n) {k : Nat} (hk : k ≤ n) :
    clampPosition (ofInt k : α) n = ofInt k :=
  hcount.clamp (by omega) (by omega)

/-- **Forward rendering at an integer position adds what the finished steps draw**, and leaves the
frame as it was. -/
theorem run_render_forward (timeline : Timeline α) {n : Nat} (hcount : CountsTo α n) (hn : 1 ≤ n)
    (hindices : timeline.steps.map (·.index) = List.range' 0 timeline.length)
    (hlength : timeline.length ≤ n) (base : Affine α) (reverses : Bool) {k : Nat}
    (hk : k ≤ timeline.length) :
    ∃ trace, (timeline.render (.ok (ofInt k)) .forward reverses none).run (Recording.start base) =
      (.ok trace, (Recording.start base).append
        ((timeline.steps.take k).flatMap (·.finished base))) := by
  have hposition := clampPosition_ofInt (hcount.mono (by omega)) hk
  refine run_render timeline.allowed_forward
    ((effectivePosition_forward _ _ reverses).trans hposition) ?_
  exact run_draw (drawForward_ofInt hcount hn hindices hlength (hk.trans hlength) base)

/-- So at the end it adds what all steps draw when they are finished. -/
theorem run_render_forward_end (timeline : Timeline α) {n : Nat} (hcount : CountsTo α n)
    (hn : 1 ≤ n) (hindices : timeline.steps.map (·.index) = List.range' 0 timeline.length)
    (hlength : timeline.length ≤ n) (base : Affine α) (reverses : Bool) :
    ∃ trace, (timeline.render (.ok (ofInt timeline.length)) .forward reverses none).run
      (Recording.start base) = (.ok trace,
        (Recording.start base).append (timeline.steps.flatMap (·.finished base))) := by
  have hrender := timeline.run_render_forward hcount hn hindices hlength base reverses
    (Nat.le_refl timeline.length)
  rwa [List.take_of_length_le (Nat.le_refl timeline.length)] at hrender

end Timeline

section

variable {β : Type} [Written β]

/-- **Forward rendering of a decoded program is the canvas of its first commands.** -/
theorem render_forward {policy : Policy} {instructions : List (Instruction β)}
    {decoded : Decoded β} (hdecode : Command.decodeAll policy instructions = .ok decoded)
    (hcount : CountsTo β (max 255 decoded.commands.length : Nat)) {defaults : PerPaint String}
    (hdefaults : ∀ paint, Rgba.isStyle (defaults.get paint) = true) (base : Affine β)
    (reverses : Bool) {k : Nat} (hk : k ≤ decoded.commands.length) :
    ∃ timeline calls trace,
      Timeline.compile defaults decoded.commands = .ok timeline ∧
      (PlainCanvas.start defaults).run base (decoded.commands.take k) = .ok calls ∧
      (timeline.render (.ok (ofInt k)) .forward reverses none).run (Recording.start base) =
        (.ok trace, { Recording.start base with calls }) := by
  have hcolors (command) (hmem : command ∈ decoded.commands) :=
    (Command.fits_of_decodeAll hdecode command hmem).colors
  have hcolored : (PlainCanvas.start (α := β) defaults).Colored :=
    ⟨hdefaults, fun _ hmem => nomatch hmem⟩
  obtain ⟨steps, hsteps, hrun⟩ :=
    stepsFrom_run (hcount.mono (by omega)) defaults base defaults 0 (simulates_start defaults)
      hcolored hcolors
  have hindices := Timeline.indices_stepsFrom hsteps
  have hlength := Timeline.length_stepsFrom hsteps
  have hwidth : steps.length ≤ max 255 decoded.commands.length := by omega
  rw [← hlength] at hk
  let timeline : Timeline β := ⟨steps, Timeline.warningsFrom 0 Pen.start decoded.commands⟩
  have hcompile : Timeline.compile defaults decoded.commands = .ok timeline :=
    bind_eq_ok.mpr ⟨steps, hsteps, rfl⟩
  obtain ⟨trace, hrender⟩ :=
    timeline.run_render_forward hcount (by omega) hindices hwidth base reverses hk
  exact ⟨timeline, _, trace, hcompile, hrun k, hrender⟩

end

/-- A program that restores more than it saves, with a name that no command has. -/
def unbalancedProgram : List (Instruction Float) := [
  .row [.text "restore"],
  .row [.text "save"],
  .row [.text "translate", .int 10, .real 2.5],
  .row [.text "fillStyle", .text "red"],
  .row [.text "spin", .int 1],
  .row [.text "save"],
  .row [.text "rotate", .int 30],
  .row [.text "fillRect", .int 0, .int 0, .int 4, .int 4],
  .row [.text "restore"],
  .row [.text "restore"],
  .row [.text "restore"],
  .row [.text "fillRect", .int 1, .int 1, .int 2, .int 2, .text "#00ff0080"]]

/-- Doubles count far enough for such a program, up to its end. -/
theorem render_forward_unbalanced :
    ∃ decoded, Command.decodeAll .skip unbalancedProgram = .ok decoded ∧
      decoded.commands.length = 12 ∧ ∃ timeline calls trace,
        Timeline.compile ⟨"black", "#888"⟩ decoded.commands = .ok timeline ∧
        (PlainCanvas.start ⟨"black", "#888"⟩).run (Affine.shift 5 7) (decoded.commands.take 12) =
          .ok calls ∧
        (timeline.render (.ok (ofInt 12)) .forward true none).run
            (Recording.start (Affine.shift 5 7)) =
          (.ok trace, { Recording.start (Affine.shift 5 7) with calls }) := by
  have hlength : ((Command.decodeAll .skip unbalancedProgram).map (·.commands.length)).toOption =
      some 12 := by decide +kernel
  cases hdecode : Command.decodeAll .skip unbalancedProgram with
  | error error =>
    rw [hdecode] at hlength
    cases hlength
  | ok decoded =>
    rw [hdecode] at hlength
    have hlength : decoded.commands.length = 12 := Option.some.inj hlength
    refine ⟨decoded, rfl, hlength,
      render_forward hdecode ?_ isStyle_defaults _ true (hlength.symm.le)⟩
    rw [hlength]
    exact Binary64.countsTo.mono (by decide)

end CanvasScript
