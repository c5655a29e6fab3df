import CanvasScript.Proofs.Timeline.Compile
import CanvasScript.Scalar.Binary64
import Mathlib.Data.List.Forall2

/-!
# Blocks

Commands between a save and its restore leave no trace behind it in what `compile_commands` gives:
whatever they do is undone, and the program goes on as if the block were not there.

* `Command.Balanced`: commands restore nothing that they have not saved themselves, and all of that.
* `Pen.Above base depth pen`: in each of its three stacks a pen keeps what `base` remembers, below
  `depth` entries of its own.
* `Pen.Above.run`: **balanced commands leave the entries below them alone**, and find no stack
  empty.
* `Pen.restore_run_save`: **so behind a block the pen is the one before it**.
* `Timeline.compile_block`: **the steps and the warnings behind a block are those without it**.
-/

namespace CanvasScript

variable {α : Type}

namespace Command

/-- Whether the command saves. -/
def isSave : Command α → Bool
  | .save => true
  | _ => false

/-- Whether the command restores. -/
def isRestore : Command α → Bool
  | .restore => true
  | _ => false

/-- How many of the commands save. -/
def saves (commands : List (Command α)) : Nat := commands.countP isSave

/-- How many of the commands restore. -/
def restores (commands : List (Command α)) : Nat := commands.countP isRestore

/-- Commands that restore nothing but what they have saved, and all of it. -/
structure Balanced (commands : List (Command α)) : Prop where
  restores_take_le : ∀ k, restores (commands.take k) ≤ saves (commands.take k)
  restores_eq : restores commands = saves commands

/-- Only the beginnings up to the end matter. -/
theorem balanced_iff {commands : List (Command α)} :
    Balanced commands ↔
      (∀ k < commands.length + 1, restores (commands.take k) ≤ saves (commands.take k)) ∧
        restores commands = saves commands := by
  refine ⟨fun h => ⟨fun k _ => h.restores_take_le k, h.restores_eq⟩, fun h => ⟨fun k => ?_, h.2⟩⟩
  by_cases hk : k < commands.length + 1
  · exact h.1 k hk
  · rw [List.take_of_length_le (by omega)]
    exact Nat.le_of_eq h.2

instance (commands : List (Command α)) : Decidable (Balanced commands) :=
  decidable_of_iff _ balanced_iff.symm

theorem saves_cons (command : Command α) (rest : List (Command α)) :
    saves (command :: rest) = saves rest + if command.isSave then 1 else 0 := List.countP_cons

theorem restores_cons (command : Command α) (rest : List (Command α)) :
    restores (command :: rest) = restores rest + if command.isRestore then 1 else 0 :=
  List.countP_cons

end Command

open Command (saves restores saves_cons restores_cons)

section

variable [Scalar α]

/-! ## The stacks of a pen -/

namespace Pen

/-- The pen after commands, one after another. -/
def run (pen : Pen α) (commands : List (Command α)) : Pen α := commands.foldl apply pen

/-- A pen remembers what another one does, below some entries of its own in each of its stacks. -/
structure Above (base : Pen α) (depth : Nat) (pen : Pen α) : Prop where
  matrices : ∃ own, pen.matrices = own ++ base.matrices ∧ own.length = depth
  fills : ∃ own, pen.fills = own ++ base.fills ∧ own.length = depth
  strokes : ∃ own, pen.strokes = own ++ base.strokes ∧ own.length = depth

namespace Above

variable {base pen : Pen α} {depth : Nat}

omit [Scalar α] in
theorem refl (base : Pen α) : Above base 0 base :=
  ⟨⟨[], rfl, rfl⟩, ⟨[], rfl, rfl⟩, ⟨[], rfl, rfl⟩⟩

omit [Scalar α] in
theorem save (h : Above base depth pen) : Above base (depth + 1) pen.save := by
  obtain ⟨⟨matrices, hmatrices, hm⟩, ⟨fills, hfills, hf⟩, ⟨strokes, hstrokes, hs⟩⟩ := h
  refine ⟨⟨pen.matrix :: matrices, ?_, ?_⟩, ⟨pen.style.fill :: fills, ?_, ?_⟩,
    ⟨pen.style.stroke :: strokes, ?_, ?_⟩⟩
  · exact congrArg (List.cons pen.matrix) hmatrices
  · exact congrArg (· + 1) hm
  · exact congrArg (List.cons pen.style.fill) hfills
  · exact congrArg (· + 1) hf
  · exact congrArg (List.cons pen.style.stroke) hstrokes
  · exact congrArg (· + 1) hs

omit [Scalar α] in
/-- A restore takes an entry of the pen itself, so it finds no stack empty. -/
theorem restore (h : Above base (depth + 1) pen) :
    Above base depth pen.restore ∧ pen.emptyTracks = [] := by
  obtain ⟨⟨matrices, hmatrices, hm⟩, ⟨fills, hfills, hf⟩, ⟨strokes, hstrokes, hs⟩⟩ := h
  obtain ⟨matrix, matrices, rfl⟩ := List.exists_cons_of_length_eq_add_one hm
  obtain ⟨fill, fills, rfl⟩ := List.exists_cons_of_length_eq_add_one hf
  obtain ⟨stroke, strokes, rfl⟩ := List.exists_cons_of_length_eq_add_one hs
  constructor
  · refine ⟨⟨matrices, ?_, Nat.succ.inj hm⟩, ⟨fills, ?_, Nat.succ.inj hf⟩,
      ⟨strokes, ?_, Nat.succ.inj hs⟩⟩
    · exact congrArg List.tail hmatrices
    · exact congrArg List.tail hfills
    · exact congrArg List.tail hstrokes
  · unfold emptyTracks
    rw [hmatrices, hfills, hstrokes]
    rfl

/-- **A command moves the depth by what it saves and restores**, where there is an entry to
restore. -/
theorem apply (h : Above base depth pen) (command : Command α) {after : Nat}
    (hafter : after + (if command.isRestore then 1 else 0) =
      depth + if command.isSave then 1 else 0) :
    Above base after (pen.apply command) ∧ pen.missing command = [] := by
  cases command with
  | save =>
    obtain rfl : after = depth + 1 := hafter
    exact ⟨h.save, rfl⟩
  | restore =>
    obtain rfl : after + 1 = depth := hafter
    exact h.restore
  | move motion =>
    obtain rfl : after = depth := hafter
    exact ⟨⟨h.matrices, h.fills, h.strokes⟩, rfl⟩
  | style paint color =>
    obtain rfl : after = depth := hafter
    exact ⟨⟨h.matrices, h.fills, h.strokes⟩, rfl⟩
  | draw paint figure color =>
    obtain rfl : after = depth := hafter
    exact ⟨h, rfl⟩
  | invalid items reason =>
    obtain rfl : after = depth := hafter
    exact ⟨h, rfl⟩

/-- **Commands that restore no more than there is of their own leave the entries below alone**, and
find no stack empty. -/
theorem run {commands : List (Command α)} (h : Above base depth pen)
    (hown : ∀ k, restores (commands.take k) ≤ depth + saves (commands.take k)) {after : Nat}
    (hafter : after + restores commands = depth + saves commands) (index : Nat) :
    Above base after (pen.run commands) ∧ Timeline.warningsFrom index pen commands = [] := by
  induction commands generalizing depth pen index with
  | nil =>
    obtain rfl : after = depth := hafter
    exact ⟨h, rfl⟩
  | cons command rest ih =>
    -- the first command has an entry to restore, since the commands up to it do
    have hfirst := hown 1
    simp only [List.take_succ_cons, List.take_zero, saves_cons, restores_cons] at hfirst
    obtain ⟨between, hbetween⟩ : ∃ between, between + (if command.isRestore then 1 else 0) =
        depth + if command.isSave then 1 else 0 := by
      refine ⟨depth + (if command.isSave then 1 else 0) - if command.isRestore then 1 else 0,
        Nat.sub_add_cancel ?_⟩
      simpa [saves, restores] using hfirst
    obtain ⟨hnext, hmissing⟩ := h.apply command hbetween
    rw [saves_cons, restores_cons] at hafter
    have hrest : ∀ k, restores (rest.take k) ≤ between + saves (rest.take k) := fun k => by
      have hk := hown (k + 1)
      rw [List.take_succ_cons, saves_cons, restores_cons] at hk
      omega
    obtain ⟨hrun, hwarnings⟩ := ih hnext hrest (by omega) (index + 1)
    refine ⟨hrun, ?_⟩
    unfold Timeline.warningsFrom
    rw [hmissing, hwarnings]
    rfl

omit [Scalar α] in
/-- Without entries of its own a pen remembers what the other one does. -/
theorem stacks_eq (h : Above base 0 pen) :
    pen.matrices = base.matrices ∧ pen.fills = base.fills ∧ pen.strokes = base.strokes := by
  obtain ⟨⟨matrices, hmatrices, hm⟩, ⟨fills, hfills, hf⟩, ⟨strokes, hstrokes, hs⟩⟩ := h
  obtain rfl := List.eq_nil_of_length_eq_zero hm
  obtain rfl := List.eq_nil_of_length_eq_zero hf
  obtain rfl := List.eq_nil_of_length_eq_zero hs
  exact ⟨hmatrices, hfills, hstrokes⟩

end Above

/-- **Behind a block the pen is the one before it**, and nothing in it found a stack empty. -/
theorem restore_run_save (pen : Pen α) {body : List (Command α)} (hbody : Command.Balanced body)
    (index : Nat) :
    (pen.save.run body).restore = pen ∧ (pen.save.run body).emptyTracks = [] ∧
      Timeline.warningsFrom index pen.save body = [] := by
  have hown (k : Nat) : restores (body.take k) ≤ 0 + saves (body.take k) := by
    rw [Nat.zero_add]
    exact hbody.restores_take_le k
  have hall : 0 + restores body = 0 + saves body := congrArg (0 + ·) hbody.restores_eq
  obtain ⟨habove, hwarnings⟩ := (Above.refl pen.save).run hown hall index
  obtain ⟨hmatrices, hfills, hstrokes⟩ := habove.stacks_eq
  refine ⟨?_, ?_, hwarnings⟩
  · unfold restore
    rw [hmatrices, hfills, hstrokes]
    rfl
  · unfold emptyTracks
    rw [hmatrices, hfills, hstrokes]
    rfl

end Pen

/-! ## Programs in parts -/

/-- Two steps do the same: the same command between the same frames and colours, drawn with the same
colours and styles. -/
structure Step.Alike (step other : Step α) : Prop where
  command : step.command = other.command
  previous : step.previous = other.previous
  matrix : step.matrix = other.matrix
  before : step.before = other.before
  after : step.after = other.after
  color : step.color = other.color
  style : step.style = other.style

namespace Timeline

/-- The styles of the last step, or of the one before them. -/
def lastStyle (earlier : PerPaint String) (steps : List (Step α)) : PerPaint String :=
  steps.foldl (fun _ step => step.style) earlier

/-- **The steps of two parts** are those of the first and, from its pen on, those of the second. -/
theorem stepsFrom_append {defaults earlier : PerPaint String} {index : Nat} {pen : Pen α}
    {first second : List (Command α)} {steps : List (Step α)} :
    stepsFrom defaults earlier index pen (first ++ second) = .ok steps ↔
      ∃ firstSteps secondSteps, stepsFrom defaults earlier index pen first = .ok firstSteps ∧
        stepsFrom defaults (lastStyle earlier firstSteps) (index + first.length) (pen.run first)
          second = .ok secondSteps ∧ steps = firstSteps ++ secondSteps := by
  induction first generalizing earlier index pen steps with
  | nil =>
    constructor
    · exact fun h => ⟨[], steps, rfl, h, rfl⟩
    · rintro ⟨_, _, hfirst, hsecond, rfl⟩
      cases hfirst
      exact hsecond
  | cons command rest ih =>
    constructor
    · intro h
      obtain ⟨step, hstep, h⟩ := bind_eq_ok.mp h
      obtain ⟨more, hmore, h⟩ := bind_eq_ok.mp h
      cases h
      obtain ⟨a, b, ha, hb, rfl⟩ := ih.mp hmore
      refine ⟨step :: a, b, bind_eq_ok.mpr ⟨step, hstep, bind_eq_ok.mpr ⟨a, ha, rfl⟩⟩, ?_, rfl⟩
      rw [List.length_cons, ← Nat.add_assoc, Nat.add_right_comm]
      exact hb
    · rintro ⟨_, b, hfirst, hsecond, rfl⟩
      obtain ⟨step, hstep, hfirst⟩ := bind_eq_ok.mp hfirst
      obtain ⟨a, ha, hfirst⟩ := bind_eq_ok.mp hfirst
      cases hfirst
      rw [List.length_cons, ← Nat.add_assoc, Nat.add_right_comm] at hsecond
      exact bind_eq_ok.mpr ⟨step, hstep,
        bind_eq_ok.mpr ⟨a ++ b, ih.mpr ⟨a, b, ha, hsecond, rfl⟩, rfl⟩⟩

/-- From the same pen the same command does the same. -/
theorem exists_stepOf_alike {defaults earlier : PerPaint String} {index : Nat} {pen : Pen α}
    {command : Command α} {step : Step α} (h : IsStepOf defaults earlier index pen command step)
    (earlier' : PerPaint String) (index' : Nat) :
    ∃ other, stepOf defaults earlier' index' pen command = .ok other ∧ step.Alike other := by
  refine ⟨{ step with
    index := index', shows := step.style.zipWith (fun now old => now != old) earlier' }, ?_,
    ⟨rfl, rfl, rfl, rfl, rfl, rfl, rfl⟩⟩
  have hcolor := h.color_eq
  rw [h.style_eq] at hcolor
  refine bind_eq_ok.mpr ⟨step.before, h.before_eq, bind_eq_ok.mpr ⟨step.after, h.after_eq,
    bind_eq_ok.mpr ⟨step.color, hcolor, ?_⟩⟩⟩
  simp only [h.command_eq, h.previous_eq, h.matrix_eq, h.style_eq]
  rfl

/-- **From the same pen the same commands do the same**, wherever they stand and whatever styles
were drawn with before. -/
theorem exists_alike {defaults earlier : PerPaint String} {index : Nat} {pen : Pen α}
    {commands : List (Command α)} {steps : List (Step α)}
    (h : stepsFrom defaults earlier index pen commands = .ok steps) (earlier' : PerPaint String)
    (index' : Nat) : ∃ others, stepsFrom defaults earlier' index' pen commands = .ok others ∧
      List.Forall₂ Step.Alike steps others := by
  induction commands generalizing earlier earlier' index index' pen steps with
  | nil =>
    cases h
    exact ⟨[], rfl, .nil⟩
  | cons command rest ih =>
    obtain ⟨step, more, rfl, hstep, hmore⟩ := stepsFrom_cons h
    obtain ⟨other, hother, halike⟩ := exists_stepOf_alike hstep earlier' index'
    obtain ⟨others, hothers, hrest⟩ := ih hmore other.style (index' + 1)
    exact ⟨other :: others, bind_eq_ok.mpr ⟨other, hother, bind_eq_ok.mpr ⟨others, hothers, rfl⟩⟩,
      .cons halike hrest⟩

theorem warningsFrom_append (index : Nat) (pen : Pen α) (first second : List (Command α)) :
    warningsFrom index pen (first ++ second) =
      warningsFrom index pen first ++
        warningsFrom (index + first.length) (pen.run first) second := by
  induction first generalizing index pen with
  | nil => rfl
  | cons command rest ih =>
    rw [List.cons_append, warningsFrom, warningsFrom, ih, List.append_assoc, List.length_cons,
      ← Nat.add_assoc, Nat.add_right_comm]
    rfl

/-- Warnings tell the places of their commands. -/
theorem index_of_mem_warningsFrom {index : Nat} {pen : Pen α} {commands : List (Command α)}
    {w : StackWarning} (h : w ∈ warningsFrom index pen commands) :
    index ≤ w.index ∧ w.index < index + commands.length := by
  induction commands generalizing index pen with
  | nil => cases h
  | cons command rest ih =>
    rw [List.length_cons]
    rcases List.mem_append.mp h with h | h
    · obtain ⟨track, -, rfl⟩ := List.mem_map.mp h
      exact ⟨Nat.le_refl index, Nat.lt_add_of_pos_right (Nat.succ_pos _)⟩
    · have := ih h
      omega

end Timeline

/-- The warning, moved back by some places if it does not stand before a place. -/
def StackWarning.movedFrom (place count : Nat) (w : StackWarning) : StackWarning :=
  if w.index < place then w else { w with index := w.index + count }

namespace Timeline

/-- Commands that stand further back give the same warnings further back. -/
theorem warningsFrom_moved {place index : Nat} (hplace : place ≤ index) (count : Nat) (pen : Pen α)
    (commands : List (Command α)) : warningsFrom (index + count) pen commands =
      (warningsFrom index pen commands).map (StackWarning.movedFrom place count) := by
  induction commands generalizing index pen with
  | nil => rfl
  | cons command rest ih =>
    rw [warningsFrom, warningsFrom, List.map_append, List.map_map, ← ih (by omega),
      Nat.add_right_comm]
    congr 1
    refine List.map_congr_left fun track _ => ?_
    exact (if_neg (Nat.not_lt.mpr hplace)).symm

/-- Warnings before a place stay. -/
theorem map_movedFrom_eq_self {place : Nat} {warnings : List StackWarning}
    (h : ∀ w ∈ warnings, w.index < place) (count : Nat) :
    warnings.map (StackWarning.movedFrom place count) = warnings :=
  (List.map_congr_left fun w hw => if_pos (h w hw)).trans (List.map_id' warnings)

/-- A program with a block in it, in parts. -/
theorem stepsFrom_block {defaults earlier : PerPaint String} {index : Nat} {pen : Pen α}
    {body post : List (Command α)} {steps : List (Step α)}
    (h : stepsFrom defaults earlier index pen (.save :: (body ++ .restore :: post)) = .ok steps) :
    ∃ opening inner closing rest later, steps = opening :: (inner ++ closing :: rest) ∧
      inner.length = body.length ∧
      IsStepOf defaults earlier index pen .save opening ∧
      IsStepOf defaults later (index + 1 + body.length) (pen.save.run body) .restore closing ∧
      stepsFrom defaults closing.style (index + 1 + body.length + 1)
        (pen.save.run body).restore post = .ok rest := by
  obtain ⟨opening, more, rfl, hopening, hmore⟩ := stepsFrom_cons h
  obtain ⟨inner, outer, hinner, houter, rfl⟩ := stepsFrom_append.mp hmore
  obtain ⟨closing, rest, rfl, hclosing, hrest⟩ := stepsFrom_cons houter
  exact ⟨opening, inner, closing, rest, _, rfl, length_stepsFrom hinner, hopening, hclosing, hrest⟩

/-- **The warnings of a program with a block in it** are those of the program without it. -/
theorem warningsFrom_block (index : Nat) (pen : Pen α) {body : List (Command α)}
    (hbody : Command.Balanced body) (pre post : List (Command α)) :
    warningsFrom index pen (pre ++ .save :: (body ++ .restore :: post)) =
      (warningsFrom index pen (pre ++ post)).map
        (StackWarning.movedFrom (index + pre.length) (body.length + 2)) := by
  obtain ⟨hpen, hempty, hinner⟩ :=
    (pen.run pre).restore_run_save hbody (index + pre.length + 1)
  have hblock : warningsFrom (index + pre.length) (pen.run pre)
      (.save :: (body ++ .restore :: post)) =
        warningsFrom (index + pre.length + (body.length + 2)) (pen.run pre) post :=
    calc
      _ = warningsFrom (index + pre.length + 1) (pen.run pre).save (body ++ .restore :: post) := rfl
      _ = warningsFrom (index + pre.length + 1 + body.length) ((pen.run pre).save.run body)
            (.restore :: post) := by
        rw [warningsFrom_append, hinner, List.nil_append]
      _ = warningsFrom (index + pre.length + 1 + body.length + 1)
            ((pen.run pre).save.run body).restore post := by
        rw [warningsFrom, Pen.missing, hempty]
        rfl
      _ = warningsFrom (index + pre.length + (body.length + 2)) (pen.run pre) post := by
        rw [hpen]
        congr 1
        omega
  rw [warningsFrom_append, warningsFrom_append, List.map_append, hblock,
    warningsFrom_moved (Nat.le_refl _),
    map_movedFrom_eq_self fun w hw => (index_of_mem_warningsFrom hw).2]

/-- **A block leaves no trace behind it.** Where a program with a block between a save and its
restore compiles, so does the program without the block. The restore ends in the frame and the
colours that the save began with, every step behind it does what the same step does in the program
without the block, and the warnings are those of that program, moved behind the block. -/
theorem compile_block {defaults : PerPaint String} {pre body post : List (Command α)}
    (hbody : Command.Balanced body) {block : Timeline α}
    (hblock : compile defaults (pre ++ [.save] ++ body ++ [.restore] ++ post) = .ok block) :
    ∃ plain opening closing, compile defaults (pre ++ post) = .ok plain ∧
      block.steps[pre.length]? = some opening ∧ opening.command = .save ∧
      block.steps[pre.length + body.length + 1]? = some closing ∧ closing.command = .restore ∧
      closing.matrix = opening.previous ∧ closing.after = opening.before ∧
      List.Forall₂ Step.Alike (block.steps.drop (pre.length + body.length + 2))
        (plain.steps.drop pre.length) ∧
      block.warnings =
        plain.warnings.map (StackWarning.movedFrom pre.length (body.length + 2)) := by
  rw [show pre ++ [.save] ++ body ++ [.restore] ++ post =
    pre ++ Command.save :: (body ++ .restore :: post) by simp] at hblock
  obtain ⟨steps, hsteps, h⟩ := bind_eq_ok.mp hblock
  cases h
  obtain ⟨first, second, hfirst, hsecond, rfl⟩ := stepsFrom_append.mp hsteps
  obtain ⟨opening, inner, closing, rest, later, rfl, hinner, hopening, hclosing, hrest⟩ :=
    stepsFrom_block hsecond
  have hpen := (((Pen.start (α := α)).run pre).restore_run_save hbody 0).1
  rw [hpen] at hrest
  obtain ⟨others, hothers, halike⟩ :=
    exists_alike hrest (lastStyle defaults first) (0 + pre.length)
  have hlength : first.length = pre.length := length_stepsFrom hfirst
  refine ⟨⟨first ++ others, warningsFrom 0 Pen.start (pre ++ post)⟩, opening, closing,
    bind_eq_ok.mpr ⟨_, stepsFrom_append.mpr ⟨first, others, hfirst, hothers, rfl⟩, rfl⟩, ?_,
    hopening.command_eq, ?_, hclosing.command_eq, ?_, ?_, ?_, ?_⟩
  · simp [← hlength]
  · simp [← hlength, ← hinner, Nat.add_assoc]
  · rw [hclosing.matrix_eq, hopening.previous_eq]
    exact congrArg Pen.matrix hpen
  · have hafter := hclosing.after_eq
    rw [show (((Pen.start (α := α)).run pre).save.run body).apply .restore = _ from hpen,
      hopening.before_eq] at hafter
    exact (Except.ok.inj hafter).symm
  · have hdrop : (first ++ opening :: (inner ++ closing :: rest)).drop
        (pre.length + body.length + 2) = rest := by
      rw [show first ++ opening :: (inner ++ closing :: rest) =
        (first ++ opening :: (inner ++ [closing])) ++ rest by simp]
      exact List.drop_left' (by simp [hlength, hinner, Nat.add_assoc])
    rw [hdrop, List.drop_left' hlength]
    exact halike
  · have hwarnings := warningsFrom_block 0 Pen.start hbody pre post
    rwa [Nat.zero_add] at hwarnings

end Timeline

end

/-- The commands before a block. The restore has nothing to bring back. -/
def beforeBlock : List (Command Float) := [.restore, .move (.translate (.int 10) (.real 0.5))]

/-- The commands of a block: they turn, paint and hold blocks of their own. -/
def insideBlock : List (Command Float) := [
  .move (.rotate (.int 30)),
  .save,
  .style .fill "red",
  .save,
  .move (.scale (.real 2.5) (.int 3)),
  .draw .fill (.rect (.int 0) (.int 0) (.int 4) (.int 4)) (some "#00ff0080"),
  .restore,
  .restore,
  .style .stroke "blue",
  .save,
  .restore]

/-- The commands behind a block. Again the restore has nothing to bring back. -/
def behindBlock : List (Command Float) :=
  [.restore, .draw .fill (.rect (.int 0) (.int 0) (.int 4) (.int 4)) none, .style .fill "green"]

theorem compile_block_nested :
    ∃ block plain opening closing,
      Timeline.compile ⟨"black", "#888"⟩
        (beforeBlock ++ [.save] ++ insideBlock ++ [.restore] ++ behindBlock) = .ok block ∧
      Timeline.compile ⟨"black", "#888"⟩ (beforeBlock ++ behindBlock) = .ok plain ∧
      block.steps[2]? = some opening ∧ opening.command = .save ∧
      block.steps[14]? = some closing ∧ closing.command = .restore ∧
      closing.matrix = opening.previous ∧ closing.after = opening.before ∧
      List.Forall₂ Step.Alike (block.steps.drop 15) (plain.steps.drop 2) ∧
      block.warnings = plain.warnings.map (StackWarning.movedFrom 2 13) := by
  have hcompiled : (Timeline.compile ⟨"black", "#888"⟩
      (beforeBlock ++ [.save] ++ insideBlock ++ [.restore] ++ behindBlock)).toBool = true := by
    decide +kernel
  cases hcompile : Timeline.compile ⟨"black", "#888"⟩
      (beforeBlock ++ [.save] ++ insideBlock ++ [.restore] ++ behindBlock) with
  | error error =>
    rw [hcompile] at hcompiled
    cases hcompiled
  | ok block =>
    obtain ⟨plain, opening, closing, h⟩ := Timeline.compile_block (by decide) hcompile
    exact ⟨block, plain, opening, closing, rfl, h⟩

end CanvasScript
