import CanvasScript.Proofs.Timeline.Colored
import Mathlib.Data.List.Chain

/-!
# Beginnings of a program

What `compile_commands` makes of a command depends on the commands before it alone, and it takes
over what they leave. So a program that is cut off does up to there what it did, whatever followed.

* `Timeline.stepsFrom_take` and `Timeline.filter_warningsFrom`: **the first steps, and the warnings
  of the first commands, are those of the beginning**.
* `Timeline.stepsFrom_error_of_take`: where the beginning fails, the program fails with its error.
* `Timeline.isChain_stepsFrom`: **every step takes over the frame and the colours that the step
  before it leaves**, which are not the ones that a drawing has for itself alone.
* `Timeline.compile_causal`: so it is for a whole timeline.
-/

namespace CanvasScript

variable {α : Type}

/-- A step takes over the frame and the colours that another one leaves. -/
structure Step.LeadsTo (step next : Step α) : Prop where
  matrix : step.matrix = next.previous
  colors : step.after = next.before

namespace Timeline

variable [Scalar α] {defaults earlier : PerPaint String} {index : Nat} {pen : Pen α}

/-! ## Cut off -/

/-- **The first steps of a program are those of its beginning.** -/
theorem stepsFrom_take {commands : List (Command α)} {steps : List (Step α)}
    (h : stepsFrom defaults earlier index pen commands = .ok steps) (k : Nat) :
    stepsFrom defaults earlier index pen (commands.take k) = .ok (steps.take k) := by
  induction commands generalizing earlier index pen steps k with
  | nil =>
    cases h
    rw [List.take_nil, List.take_nil]
    rfl
  | cons command rest ih =>
    cases k with
    | zero => rfl
    | succ k =>
      obtain ⟨step, hstep, h⟩ := bind_eq_ok.mp h
      obtain ⟨more, hmore, h⟩ := bind_eq_ok.mp h
      cases h
      exact bind_eq_ok.mpr ⟨step, hstep, bind_eq_ok.mpr ⟨more.take k, ih hmore k, rfl⟩⟩

/-- A program fails where its beginning does. -/
theorem stepsFrom_error_of_take {commands : List (Command α)} {k : Nat} {error : ColorError}
    (h : stepsFrom defaults earlier index pen (commands.take k) = .error error) :
    stepsFrom defaults earlier index pen commands = .error error := by
  induction commands generalizing earlier index pen k with
  | nil =>
    rw [List.take_nil] at h
    exact h
  | cons command rest ih =>
    cases k with
    | zero => cases h
    | succ k =>
      refine bind_eq_error.mpr ?_
      rcases bind_eq_error.mp h with hstep | ⟨step, hstep, h⟩
      · exact .inl hstep
      rcases bind_eq_error.mp h with hrest | ⟨more, -, h⟩
      · exact .inr ⟨step, hstep, bind_eq_error.mpr (.inl (ih hrest))⟩
      · cases h

theorem le_index_of_mem_warningsFrom {commands : List (Command α)} {w : StackWarning}
    (h : w ∈ warningsFrom index pen commands) : index ≤ w.index := by
  induction commands generalizing index pen with
  | nil => cases h
  | cons command rest ih =>
    rcases List.mem_append.mp h with hfirst | hrest
    · obtain ⟨track, -, rfl⟩ := List.mem_map.mp hfirst
      exact Nat.le_refl index
    · exact Nat.le_of_succ_le (ih hrest)

/-- **The warnings of the first commands of a program are those of its beginning.** -/
theorem filter_warningsFrom (index : Nat) (pen : Pen α) (commands : List (Command α)) (k : Nat) :
    (warningsFrom index pen commands).filter (·.index < index + k) =
      warningsFrom index pen (commands.take k) := by
  induction commands generalizing index pen k with
  | nil =>
    rw [List.take_nil]
    rfl
  | cons command rest ih =>
    cases k with
    | zero =>
      -- the cut is here, and every warning tells of a command behind it
      refine List.filter_eq_nil_iff.mpr fun w hw hlt => ?_
      exact absurd (of_decide_eq_true hlt) (Nat.not_lt.mpr (le_index_of_mem_warningsFrom hw))
    | succ k =>
      -- the cut is behind this command, at the same place seen from the next one
      have hfirst : ((pen.missing command).map (StackWarning.mk index)).filter
          (·.index < index + (k + 1)) = (pen.missing command).map (StackWarning.mk index) := by
        refine List.filter_eq_self.mpr fun w hw => decide_eq_true ?_
        obtain ⟨track, -, rfl⟩ := List.mem_map.mp hw
        exact Nat.lt_add_of_pos_right (Nat.succ_pos k)
      have hrest := ih (index + 1) (pen.apply command) k
      rw [Nat.add_assoc, Nat.add_comm 1 k] at hrest
      rw [List.take_succ_cons, warningsFrom, warningsFrom, List.filter_append, hfirst, hrest]

/-! ## Linked -/

/-- **Every step takes over what the step before it leaves.** -/
theorem isChain_stepsFrom {commands : List (Command α)} {steps : List (Step α)}
    (h : stepsFrom defaults earlier index pen commands = .ok steps) :
    steps.IsChain Step.LeadsTo := by
  induction commands generalizing earlier index pen steps with
  | nil =>
    cases h
    exact .nil
  | cons command rest ih =>
    obtain ⟨step, more, rfl, hstep, hmore⟩ := stepsFrom_cons h
    refine (ih hmore).cons fun next hnext => ?_
    -- what the next step takes over is what the pen holds behind this one
    obtain ⟨hprevious, hbefore⟩ := head_stepsFrom hmore next hnext
    have hafter := hstep.after_eq
    rw [hbefore] at hafter
    exact ⟨hstep.matrix_eq.trans hprevious.symm, (Except.ok.inj hafter).symm⟩

/-- **A timeline tells of each beginning of its program what that alone would have.** Its steps are
those of its commands, one by one; cut off behind any of them, it is the timeline of the commands up
to there, and an error there is one of the whole program. The first step starts from the identity
and the default colours, and every other one from what the step before it leaves. -/
theorem compile_causal (defaults : PerPaint String) (commands : List (Command α)) :
    (∀ timeline, compile defaults commands = .ok timeline →
      timeline.steps.map (·.command) = commands ∧
      (∀ k, compile defaults (commands.take k) =
        .ok ⟨timeline.steps.take k, timeline.warnings.filter (·.index < k)⟩) ∧
      (∀ first ∈ timeline.steps.head?, first.previous = Affine.identity ∧
        defaults.mapM Rgba.ofStyle = .ok first.before) ∧
      timeline.steps.IsChain Step.LeadsTo) ∧
    ∀ k error, compile defaults (commands.take k) = .error error →
      compile defaults commands = .error error := by
  refine ⟨fun timeline h => ?_, fun k error h => ?_⟩
  · obtain ⟨steps, hsteps, h⟩ := bind_eq_ok.mp h
    obtain rfl := Except.ok.inj h
    refine ⟨commands_stepsFrom hsteps, fun k => ?_, head_stepsFrom hsteps,
      isChain_stepsFrom hsteps⟩
    have hwarnings := filter_warningsFrom 0 Pen.start commands k
    rw [Nat.zero_add] at hwarnings
    dsimp only
    rw [hwarnings]
    exact bind_eq_ok.mpr ⟨steps.take k, stepsFrom_take hsteps k, rfl⟩
  · rcases bind_eq_error.mp h with h | ⟨_, -, h⟩
    · exact bind_eq_error.mpr (.inl (stepsFrom_error_of_take h))
    · cases h

end Timeline

/-- A program with a block, a drawing in a colour of its own, and restores that match nothing at its
start and behind the block. -/
def cutProgram : List (Command Float) := [
  .restore,
  .style .fill "red",
  .draw .fill (.rect (.int 0) (.int 0) (.int 4) (.int 4)) (some "blue"),
  .save,
  .move (.translate (.int 10) (.real 0.5)),
  .draw .fill (.rect (.int 0) (.int 0) (.int 4) (.int 4)) none,
  .restore,
  .restore,
  .style .stroke "#123"]

/-- It is cut off inside the block. With a style that is no colour at its end it has no timeline. -/
theorem compile_causal_block :
    (∃ timeline, Timeline.compile ⟨"black", "#888"⟩ cutProgram = .ok timeline ∧
      Timeline.compile ⟨"black", "#888"⟩ (cutProgram.take 6) =
        .ok ⟨timeline.steps.take 6, [⟨0, .fill⟩, ⟨0, .stroke⟩, ⟨0, .matrix⟩]⟩ ∧
      timeline.steps.IsChain Step.LeadsTo) ∧
    Timeline.compile (α := Float) ⟨"black", "#888"⟩ [.style .fill "ink"] =
      .error (.unknown "ink") ∧
    Timeline.compile ⟨"black", "#888"⟩ (.style .fill "ink" :: cutProgram) =
      .error (.unknown "ink") := by
  have hcolors : ∀ command ∈ cutProgram, ∀ style ∈ command.colors,
      Rgba.isStyle style = true := by decide +kernel
  obtain ⟨timeline, hcompile, -⟩ := Timeline.exists_compile isStyle_defaults hcolors
  obtain ⟨-, hcut, -, hchain⟩ := (Timeline.compile_causal _ cutProgram).1 timeline hcompile
  have hwarnings : timeline.warnings.filter (·.index < 6) =
      [⟨0, .fill⟩, ⟨0, .stroke⟩, ⟨0, .matrix⟩] := by
    obtain ⟨_, -, h⟩ := bind_eq_ok.mp hcompile
    obtain rfl := Except.ok.inj h
    show (Timeline.warningsFrom 0 Pen.start cutProgram).filter (·.index < 6) = _
    decide
  have hink : Timeline.compile (α := Float) ⟨"black", "#888"⟩ [.style .fill "ink"] =
      .error (.unknown "ink") := by
    have hbefore : (⟨"black", "#888"⟩ : PerPaint String).mapM Rgba.ofStyle =
        .ok ⟨.solid 0 0 0, .solid 136 136 136⟩ := by decide +kernel
    have hafter : (⟨"ink", "#888"⟩ : PerPaint String).mapM Rgba.ofStyle =
        .error (.unknown "ink") := by decide +kernel
    exact bind_eq_error.mpr (.inl (bind_eq_error.mpr (.inl (bind_eq_error.mpr
      (.inr ⟨_, hbefore, bind_eq_error.mpr (.inl hafter)⟩)))))
  refine ⟨⟨timeline, hcompile, ?_, hchain⟩, hink, ?_⟩
  · rw [← hwarnings]
    exact hcut 6
  · exact (Timeline.compile_causal _ (.style .fill "ink" :: cutProgram)).2 1 _ hink

end CanvasScript
