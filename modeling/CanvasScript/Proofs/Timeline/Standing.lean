import CanvasScript.Proofs.Timeline.Amount
import CanvasScript.Proofs.Timeline.Interpolation

/-!
# Where a position stands

A position of a timeline stands before a step or inside one, and the trace (`build_trace`) tells
which: by its cursor, by the progress of its lines and by its text. What is drawn is what it tells.

* `Trace.textLines_of_cursor`: **the cursor has one line, before those of its step**.
* `Trace.StandsBefore k` and `Trace.StandsInside k`: all that a trace tells of a position before
  step `k`, and of one inside it.
* `Timeline.Traces`: a trace tells where its position stands, and how far each step is drawn.
* `Timeline.draw_eq_drawLines`: **a timeline is drawn as the lines of its trace say**.
* `Timeline.render_traced`: **so without rounding every rendering has a trace that tells what is
  drawn**, at every position and in both directions.

Out of scope: the rounding of doubles.
-/

namespace CanvasScript

open Scalar

namespace Trace

/-! ## Lines -/

section

variable {α : Type} [Scalar α] {steps : List (Step α)}

/-- The lines of a trace tell how far their steps have come. -/
theorem mem_lines {p : α} {direction : Direction} {line : TraceLine α}
    (hline : line ∈ (ofSteps steps p direction).lines) :
    line.progress = progress line.index p ∧ line.amount = amount line.index p := by
  obtain ⟨step, -, rfl⟩ := List.mem_map.mp hline
  exact ⟨rfl, rfl⟩

/-- The lines are numbered as the steps are. -/
theorem indices_ofSteps (hindices : steps.map (·.index) = List.range' 0 steps.length) (p : α)
    (direction : Direction) : (ofSteps steps p direction).lines.map (·.index) =
      List.range' 0 (ofSteps steps p direction).lines.length := by
  unfold ofSteps
  rw [List.length_map, List.map_map, ← hindices]
  rfl

theorem cursor_ofSteps (hsteps : steps ≠ []) (p : α) (direction : Direction) :
    (ofSteps steps p direction).cursor = whole? p := by
  cases steps with
  | nil => exact absurd rfl hsteps
  | cons step rest => rfl

end

/-! ## The line of the cursor -/

section

variable {α : Type} [Written α]

/-- The lines of a step begin with a mark, which the line of the cursor does not have. -/
theorem cursorLine_notMem (line : TraceLine α) : cursorLine ∉ stepLines line := by
  intro hmem
  obtain ⟨statement, -, htext⟩ := List.mem_map.mp hmem
  have hhead := congrArg (fun text : String => text.toList.head?) htext
  simp only [String.toList_append] at hhead
  split at hhead
  · simp [cursorLine] at hhead
  · simp [cursorLine] at hhead

theorem count_stepLines (lines : List (TraceLine α)) :
    (lines.flatMap stepLines).count cursorLine = 0 :=
  List.count_eq_zero.mpr fun hmem => by
    obtain ⟨line, -, hline⟩ := List.mem_flatMap.mp hmem
    exact cursorLine_notMem line hline

/-- Without a cursor the text has the lines of the steps. -/
theorem textLines_of_none {trace : Trace α} (hcursor : trace.cursor = none) :
    trace.textLines = trace.lines.flatMap stepLines := by
  unfold textLines
  rw [hcursor]
  exact List.append_nil _

/-- **The cursor has one line, before those of its step**, or behind all of them. -/
theorem textLines_of_cursor {trace : Trace α} {k : Nat}
    (hindices : trace.lines.map (·.index) = List.range' 0 trace.lines.length)
    (hk : k ≤ trace.lines.length) (hcursor : trace.cursor = some (k : Int)) :
    trace.textLines = (trace.lines.take k).flatMap stepLines ++
      cursorLine :: (trace.lines.drop k).flatMap stepLines := by
  let marked (line : TraceLine α) : List String :=
    (if some (k : Int) = some (line.index : Int) then [cursorLine] else []) ++ stepLines line
  have hother {lines : List (TraceLine α)} (h : ∀ line ∈ lines, line.index ≠ k) :
      lines.flatMap marked = lines.flatMap stepLines :=
    List.flatMap_congr fun line hline => by
      have hne := h line hline
      exact congrArg (· ++ stepLines line) (if_neg fun heq => by simp at heq; omega)
  have hbefore : (trace.lines.take k).flatMap marked = (trace.lines.take k).flatMap stepLines :=
    hother fun line hline => (index_lt_of_mem_take hindices hline).ne
  have hbehind : (trace.lines.drop (k + 1)).flatMap marked =
      (trace.lines.drop (k + 1)).flatMap stepLines :=
    hother fun line hline => by
      have := le_index_of_mem_drop hindices hline
      omega
  have hsplit : trace.lines.flatMap marked =
      (trace.lines.take k).flatMap stepLines ++ (trace.lines.drop k).flatMap marked := by
    rw [← hbefore, ← List.flatMap_append, List.take_append_drop]
  unfold textLines
  rw [hcursor]
  show trace.lines.flatMap marked ++ (if _ then _ else _) = _
  rw [hsplit, List.append_assoc]
  congr 1
  rcases hk.eq_or_lt with rfl | hlt
  · rw [List.drop_length, if_pos rfl]
    rfl
  · have hindex : trace.lines[k].index = k := index_getElem hindices hlt
    have hmark : marked trace.lines[k] = cursorLine :: stepLines trace.lines[k] := by
      show (if _ then _ else _) ++ _ = _
      rw [hindex, if_pos rfl]
      rfl
    rw [List.drop_eq_getElem_cons hlt, List.flatMap_cons, List.flatMap_cons, hmark, hbehind,
      if_neg fun heq => by simp at heq; omega, List.append_nil]
    rfl

end

end Trace

open scoped Exact

variable {K : Type} [Field K] [LinearOrder K] [FloorRing K] [ScalarFunctions K]

/-! ## What a trace tells -/

/-- All that a trace tells of a position before step `k`. -/
structure Trace.StandsBefore (trace : Trace K) (k : Nat) : Prop where
  cursor : trace.cursor = some (k : Int)
  active : trace.active = none
  progress : ∀ line ∈ trace.lines, line.progress = if line.index < k then .done else .pending
  /-- The line of the cursor stands before those of step `k`, with any texts of numbers. -/
  text : ∀ [ScalarTexts K], trace.text = String.intercalate "\n"
    ((trace.lines.take k).flatMap Trace.stepLines ++
      Trace.cursorLine :: (trace.lines.drop k).flatMap Trace.stepLines)
  /-- It stands nowhere else. -/
  once : ∀ [ScalarTexts K], trace.textLines.count Trace.cursorLine = 1

/-- All that a trace tells of a position inside step `k`. -/
structure Trace.StandsInside (trace : Trace K) (k : Nat) : Prop where
  cursor : trace.cursor = none
  active : trace.active = some k
  progress : ∀ line ∈ trace.lines, line.progress =
    if line.index < k then .done else if line.index = k then .active else .pending
  /-- There is no line of a cursor, with any texts of numbers. -/
  text : ∀ [ScalarTexts K],
    trace.text = String.intercalate "\n" (trace.lines.flatMap Trace.stepLines)
  nowhere : ∀ [ScalarTexts K], trace.textLines.count Trace.cursorLine = 0

/-- How far a step is shown whose amount is done: backward, what is left of it. -/
def Direction.shown (direction : Direction) (amount : K) : K :=
  match direction with
  | .forward => amount
  | .backward => 1 - amount

section

variable {σ : Type} [Surface K σ]

/-- Draws a step as far as the line of its trace says, unless that is nothing. -/
def Step.follow (direction : Direction) (step : Step K) (line : TraceLine K) : Drawing σ Unit :=
  let shown := direction.shown line.amount
  if shown = 0 then pure ()
  else
    match direction with
    | .forward => step.within shown (step.draw shown)
    | .backward => do
      Drawing.enter (step.partway shown)
      step.draw shown

/-- Draws a marker in the frame in which forward drawing ends. -/
def Timeline.markLast (steps : List (Step K)) (position : K) (marker : Option (Drawing σ Unit)) :
    Drawing σ Unit :=
  match marker, lastBegun steps position with
  | some mark, some (step, t) => step.within t mark
  | _, _ => pure ()

/-- Draws the steps of a timeline as far as the lines of a trace say. -/
def Timeline.drawLines (timeline : Timeline K) (trace : Trace K)
    (marker : Option (Drawing σ Unit)) : Drawing σ Unit :=
  match trace.direction with
  | .forward => do
    (timeline.steps.zip trace.lines).forM fun (step, line) => step.follow .forward line
    markLast timeline.steps trace.position marker
  | .backward => Drawing.framed do
    (timeline.steps.zip trace.lines).forM fun (step, line) => step.follow .backward line
    marker.getD (pure ())

end

variable [IsStrictOrderedRing K]

/-- A trace tells where its position stands, and how far each step is drawn. -/
structure Timeline.Traces (timeline : Timeline K) (trace : Trace K) : Prop where
  indices : trace.lines.map (·.index) = List.range timeline.length
  amounts : ∀ line ∈ trace.lines, line.amount = max 0 (min 1 (trace.position - line.index))
  nonneg : 0 ≤ trace.position
  le_length : trace.position ≤ timeline.length
  before : ∀ k : Nat, trace.position = k → trace.StandsBefore k
  inside : (∀ k : Nat, trace.position ≠ k) → trace.StandsInside ⌊trace.position⌋₊
  /-- Each line tells its step as far as it is shown. -/
  told : ∀ entry ∈ timeline.steps.zip trace.lines,
    entry.2.statements = entry.1.describe (trace.direction.shown entry.2.amount)
  /-- Each step is drawn as far as its line is shown, on every surface and with any marker. -/
  drawn : ∀ {σ : Type} [Surface K σ] (marker : Option (Drawing σ Unit)),
    timeline.draw trace marker = timeline.drawLines trace marker

/-! ## Traces of steps -/

namespace Trace

omit [IsStrictOrderedRing K] in
/-- A line tells its step as far as it is shown. -/
theorem statements_line (step : Step K) (p : K) (direction : Direction) :
    (line p direction step).statements =
      step.describe (direction.shown (amount step.index p)) := by
  cases direction with
  | forward => rfl
  | backward =>
    show step.describe (one - amount step.index p) = step.describe (1 - amount step.index p)
    rw [Exact.one_eq]

variable {steps : List (Step K)} (hindices : steps.map (·.index) = List.range' 0 steps.length)
  (hsteps : steps ≠ []) {direction : Direction}

include hindices hsteps

/-- **At an integer a position stands before the step of that place**, or behind all of them. -/
theorem standsBefore {k : Nat} (hk : k ≤ steps.length) :
    (ofSteps steps (k : K) direction).StandsBefore k := by
  have hcursor : (ofSteps steps (k : K) direction).cursor = some (k : Int) :=
    (cursor_ofSteps hsteps _ direction).trans
      (Exact.whole?_eq_some_iff.mpr (Int.cast_natCast k).symm)
  have hprogress : ∀ line ∈ (ofSteps steps (k : K) direction).lines,
      line.progress = if line.index < k then .done else .pending := by
    intro line hline
    rw [(mem_lines hline).1, progress_eq]
    norm_cast
    by_cases hbefore : line.index < k
    · rw [if_pos (Nat.add_one_le_iff.mpr hbefore), if_pos hbefore]
    · rw [if_neg fun h => hbefore (Nat.add_one_le_iff.mp h), if_neg hbefore, if_neg hbefore]
  have htext [ScalarTexts K] := textLines_of_cursor (indices_ofSteps hindices (k : K) direction)
    (hk.trans_eq (List.length_map _).symm) hcursor
  refine ⟨hcursor, ?_, hprogress, fun {_} => congrArg _ htext, fun {_} => ?_⟩
  · have hnone : (ofSteps steps (k : K) direction).lines.find? (·.progress = .active) = none := by
      refine List.find?_eq_none.mpr fun line hline hactive => ?_
      have hline := (hprogress line hline).symm.trans (of_decide_eq_true hactive)
      split at hline <;> cases hline
    unfold active
    rw [hnone]
    rfl
  · rw [htext, List.count_append, List.count_cons_self, count_stepLines, count_stepLines]

/-- **Between integers it stands inside a step.** -/
theorem standsInside {p : K} (hnonneg : 0 ≤ p) (hlength : p ≤ steps.length)
    (hp : ∀ k : Nat, p ≠ k) : (ofSteps steps p direction).StandsInside ⌊p⌋₊ := by
  have hdone (i : Nat) : (i : K) + 1 ≤ p ↔ i < ⌊p⌋₊ := by
    rw [← Nat.cast_add_one, ← Nat.le_floor_iff hnonneg, Nat.add_one_le_iff]
  have hbegun (i : Nat) : (i : K) < p ↔ i ≤ ⌊p⌋₊ := by
    rw [Nat.le_floor_iff hnonneg]
    exact ⟨le_of_lt, fun h => lt_of_le_of_ne h (hp i).symm⟩
  have hcursor : (ofSteps steps p direction).cursor = none := by
    rw [cursor_ofSteps hsteps, Option.eq_none_iff_forall_ne_some]
    intro n hn
    rw [Exact.whole?_eq_some_iff] at hn
    have hn' : 0 ≤ n := by exact_mod_cast hn ▸ hnonneg
    exact hp n.toNat (by rw [hn]; exact_mod_cast (Int.toNat_of_nonneg hn').symm)
  have hprogress : ∀ line ∈ (ofSteps steps p direction).lines, line.progress =
      if line.index < ⌊p⌋₊ then .done else if line.index = ⌊p⌋₊ then .active else .pending := by
    intro line hline
    rw [(mem_lines hline).1, progress_eq]
    simp only [hdone, hbegun]
    rcases lt_trichotomy line.index ⌊p⌋₊ with h | h | h
    · rw [if_pos h, if_pos h]
    · rw [if_neg h.not_lt, if_pos h.le, if_neg h.not_lt, if_pos h]
    · rw [if_neg h.not_gt, if_neg h.not_ge, if_neg h.not_gt, if_neg h.ne']
  have htext [ScalarTexts K] := textLines_of_none hcursor
  refine ⟨hcursor, ?_, hprogress, fun {_} => congrArg _ htext, fun {_} => by
    rw [htext, count_stepLines]⟩
  have hfloor : ⌊p⌋₊ < (ofSteps steps p direction).lines.length := by
    rw [ofSteps, List.length_map]
    exact_mod_cast (Nat.floor_le hnonneg).trans_lt (lt_of_le_of_ne hlength (hp _))
  have hactive : (ofSteps steps p direction).lines[⌊p⌋₊].progress = .active := by
    rw [hprogress _ (List.getElem_mem hfloor),
      index_getElem (indices_ofSteps hindices p direction) hfloor, if_neg (lt_irrefl _), if_pos rfl]
  unfold active
  cases hfind : (ofSteps steps p direction).lines.find? (·.progress = .active) with
  | none =>
    exact absurd (decide_eq_true hactive)
      (List.find?_eq_none.mp hfind _ (List.getElem_mem hfloor))
  | some line =>
    have hfound : line.progress = .active := by simpa using List.find?_some hfind
    have hline := (hprogress line (List.mem_of_find?_eq_some hfind)).symm.trans hfound
    split_ifs at hline with _ hindex
    exact congrArg some hindex

end Trace

/-! ## What is drawn -/

section

variable {σ : Type} [Surface K σ]

/-- **Forward drawing draws each step as far as its line is shown.** -/
theorem Step.follow_forward (step : Step K) (p : K) :
    (step.follow .forward (Trace.line p .forward step) : Drawing σ Unit) =
      if zero < step.forwardAmount p then
        step.within (step.forwardAmount p) (step.draw (step.forwardAmount p))
      else pure () := by
  have hnonneg := Trace.amount_nonneg step.index p
  rw [step.forwardAmount_eq, Exact.zero_eq]
  show (if Trace.amount step.index p = 0 then _ else _) = _
  rcases hnonneg.eq_or_lt' with hzero | hpos
  · rw [if_pos hzero, if_neg hzero.not_gt]
  · rw [if_neg hpos.ne', if_pos hpos]
    rfl

/-- **Backward drawing draws what is left of it.** -/
theorem Step.follow_backward (step : Step K) (p : K) :
    (step.follow .backward (Trace.line p .backward step) : Drawing σ Unit) =
      Timeline.drawLeft p step := by
  have hnonneg : 0 ≤ 1 - Trace.amount step.index p :=
    sub_nonneg.mpr (Trace.amount_le_one step.index p)
  unfold Timeline.drawLeft
  rw [step.backwardAmount_eq, Exact.zero_eq]
  show (if 1 - Trace.amount step.index p = 0 then _ else _) = _
  rcases hnonneg.eq_or_lt' with hzero | hpos
  · rw [if_pos hzero, if_neg hzero.not_gt]
  · rw [if_neg hpos.ne', if_pos hpos]
    rfl

namespace Timeline

/-- The steps that have begun are those whose lines are shown. -/
theorem forM_begun (steps : List (Step K)) (p : K) :
    ((begun steps p).forM fun entry => entry.1.within entry.2 (entry.1.draw entry.2) :
        Drawing σ Unit) =
      steps.forM fun step => step.follow .forward (Trace.line p .forward step) := by
  unfold begun
  rw [forM_filter]
  refine List.forM_map.trans (forM_congr fun step _ => ?_)
  rw [step.follow_forward]
  simp only [decide_eq_true_eq]

/-- **A timeline is drawn as the lines of its trace say.** -/
theorem draw_eq_drawLines {timeline : Timeline K} (hsteps : timeline.steps ≠ []) (p : K)
    (direction : Direction) (marker : Option (Drawing σ Unit)) :
    timeline.draw (Trace.ofSteps timeline.steps p direction) marker =
      timeline.drawLines (Trace.ofSteps timeline.steps p direction) marker := by
  have hempty : timeline.steps.isEmpty = false := by simpa using hsteps
  unfold draw drawLines Trace.ofSteps
  rw [hempty]
  cases direction with
  | forward =>
    show drawForward timeline.steps p marker = _
    dsimp only
    rw [forM_zip_map, ← forM_begun]
    rfl
  | backward =>
    show drawBackward timeline.steps p marker = _
    dsimp only
    rw [forM_zip_map]
    simp only [Step.follow_backward]
    rfl

end Timeline

end

/-! ## Timelines -/

/-- **The trace of steps tells where its position stands.** -/
theorem Timeline.traces_ofSteps {timeline : Timeline K}
    (hindices : timeline.steps.map (·.index) = List.range' 0 timeline.length)
    (hsteps : timeline.steps ≠ []) {p : K} (hnonneg : 0 ≤ p) (hlength : p ≤ timeline.length)
    (direction : Direction) : timeline.Traces (Trace.ofSteps timeline.steps p direction) where
  indices := by
    rw [Trace.indices_ofSteps hindices, ← List.range_eq_range']
    exact congrArg _ (List.length_map _)
  amounts line hline := by rw [(Trace.mem_lines hline).2, Trace.amount_eq]; rfl
  nonneg := hnonneg
  le_length := hlength
  before k hk := by
    obtain rfl : p = k := hk
    exact Trace.standsBefore hindices hsteps (by exact_mod_cast hlength)
  inside hp := Trace.standsInside hindices hsteps hnonneg hlength hp
  told entry hentry := by
    rw [Trace.ofSteps, ← List.map_prod_left_eq_zip] at hentry
    obtain ⟨step, -, rfl⟩ := List.mem_map.mp hentry
    exact Trace.statements_line step p direction
  drawn marker := draw_eq_drawLines hsteps p direction marker

/-- **The trace of a timeline tells where its position stands**, and a rendering draws each step as
far as its line is shown. -/
theorem Timeline.render_traced {defaults : PerPaint String} {commands : List (Command K)}
    {timeline : Timeline K} (hcompile : Timeline.compile defaults commands = .ok timeline)
    (hsteps : timeline.steps ≠ []) {direction : Direction}
    (hallowed : timeline.allowed direction = .ok direction) (p : K) (reverses : Bool) :
    ∃ trace, timeline.trace (.ok p) direction reverses = .ok trace ∧
      trace.direction = direction ∧
      trace.position = effectivePosition p timeline.length
        (reverses && decide (direction = .backward)) ∧
      timeline.Traces trace ∧
      ∀ {σ : Type} [Surface K σ] (marker : Option (Drawing σ Unit)),
        timeline.render (.ok p) direction reverses marker = do
          (timeline.drawLines trace marker).rendering
          return trace := by
  have hindices := indices_compile hcompile
  obtain ⟨trace, htrace, hcases⟩ := exists_trace hallowed p reverses
  rcases hcases with ⟨-, hempty⟩ | rfl
  · exact absurd hempty hsteps
  · obtain ⟨hnonneg, hlength⟩ := effectivePosition_mem p timeline.length
      (reverses && decide (direction = .backward))
    have htraces := traces_ofSteps hindices hsteps hnonneg hlength direction
    refine ⟨_, htrace, rfl, rfl, htraces, fun marker => ?_⟩
    rw [render_of_trace htrace, htraces.drawn]

/-- A position between two steps, counted from the end of a program without saves. -/
theorem render_traced_turning :
    ∃ timeline, Timeline.compile ⟨"black", "#888"⟩ turningProgram = .ok timeline ∧
      timeline.steps ≠ [] ∧ timeline.allowed .backward = .ok .backward ∧
      ∃ trace, timeline.trace (.ok (5 / 2)) .backward true = .ok trace ∧
        trace.direction = .backward ∧
        trace.position = effectivePosition (5 / 2) timeline.length true ∧
        timeline.Traces trace ∧
        ∀ {σ : Type} [Surface Real σ] (marker : Option (Drawing σ Unit)),
          timeline.render (.ok (5 / 2)) .backward true marker = do
            (timeline.drawLines trace marker).rendering
            return trace := by
  obtain ⟨timeline, hcompile, hlength, hstack⟩ := exists_compile_turning
  have hsteps : timeline.steps ≠ [] :=
    List.ne_nil_of_length_eq_add_one hlength
  have hallowed : timeline.allowed .backward = .ok .backward :=
    if_neg fun h => Bool.false_ne_true (hstack.symm.trans h.2)
  exact ⟨timeline, hcompile, hsteps, hallowed,
    Timeline.render_traced hcompile hsteps hallowed (5 / 2) true⟩

end CanvasScript
