import CanvasScript.Proofs.Timeline.Colored
import Mathlib.Data.Finset.Card
import Mathlib.Data.Finset.Lattice.Fold
import Mathlib.Order.Lattice.Nat

/-!
# Nesting

A save and its restore match like brackets. The three stacks of a pen (`_StylePass` and
`_MatrixPass`) hold an entry for every save that is still open, so they are empty together, and a
restore that matches no save finds them so.

* `Command.IsMatched`: a restore matches a save before it with balanced commands between the two.
* `Command.isMatched_iff`: **it does where a save is open**, that is, where the depth is not zero.
* `Command.depth_add_restores`: what is open and what was restored was saved, up to the restores
  that match nothing; so **those are the most by which restores have outnumbered saves**
  (`Command.length_unmatched`).
* `Pen.hasDepth_run`: **the three stacks have the depth of the commands**.
* `Timeline.compile_nesting`: **a timeline warns of the restores that match nothing**, for each of
  the three tracks, and of nothing else.
-/

namespace CanvasScript

variable {α : Type}

namespace Command

variable {commands : List (Command α)} {command : Command α}

/-! ## Open saves -/

/-- How many saves are open behind a command. A restore with nothing to bring back closes none. -/
def nest (depth : Nat) : Command α → Nat
  | .save => depth + 1
  | .restore => depth - 1
  | _ => depth

/-- How many saves are open behind commands. -/
def depth (commands : List (Command α)) : Nat := commands.foldl nest 0

theorem nest_add (depth : Nat) (command : Command α) :
    command.nest depth + (if command.isRestore then 1 else 0) =
      depth + (if command.isSave then 1 else 0) +
        if command.isRestore = true ∧ depth = 0 then 1 else 0 := by
  cases command with
  | restore =>
    cases depth with
    | zero => rfl
    | succ depth => rfl
  | _ => rfl

theorem depth_concat (commands : List (Command α)) (command : Command α) :
    depth (commands ++ [command]) = nest (depth commands) command := List.foldl_concat ..

theorem saves_concat (commands : List (Command α)) (command : Command α) :
    saves (commands ++ [command]) = saves commands + if command.isSave then 1 else 0 := by
  rw [saves, List.countP_append, List.countP_singleton]
  rfl

theorem restores_concat (commands : List (Command α)) (command : Command α) :
    restores (commands ++ [command]) = restores commands + if command.isRestore then 1 else 0 := by
  rw [restores, List.countP_append, List.countP_singleton]
  rfl

/-- Commands that restore nothing but what they have saved, and leave some saves open. -/
structure Opens (count : Nat) (commands : List (Command α)) : Prop where
  restores_take_le : ∀ k, restores (commands.take k) ≤ saves (commands.take k)
  restores_add : restores commands + count = saves commands

theorem opens_nil : Opens 0 ([] : List (Command α)) :=
  ⟨fun k => by rw [List.take_nil]; exact Nat.le_refl _, rfl⟩

theorem opens_zero_iff : Opens 0 commands ↔ Balanced commands :=
  ⟨fun h => ⟨h.restores_take_le, h.restores_add⟩, fun h => ⟨h.restores_take_le, h.restores_eq⟩⟩

/-- **One more command opens a save or closes one of those that are open.** -/
theorem opens_concat_iff {after : Nat} : Opens after (commands ++ [command]) ↔
    ∃ count, Opens count commands ∧
      after + (if command.isRestore then 1 else 0) =
        count + if command.isSave then 1 else 0 := by
  constructor
  · intro h
    have htake (k : Nat) : restores (commands.take k) ≤ saves (commands.take k) := by
      have hk := h.restores_take_le (min k commands.length)
      rwa [List.take_append_of_le_length (Nat.min_le_right ..), ← List.take_eq_take_min] at hk
    have hall := htake commands.length
    rw [List.take_length] at hall
    have hadd := h.restores_add
    rw [restores_concat, saves_concat] at hadd
    exact ⟨saves commands - restores commands, ⟨htake, by omega⟩, by omega⟩
  · rintro ⟨count, h, hafter⟩
    have hadd : restores (commands ++ [command]) + after = saves (commands ++ [command]) := by
      rw [restores_concat, saves_concat]
      have := h.restores_add
      omega
    refine ⟨fun k => ?_, hadd⟩
    by_cases hk : k ≤ commands.length
    · rw [List.take_append_of_le_length hk]
      exact h.restores_take_le k
    · rw [List.take_of_length_le (by simp; omega)]
      omega

/-- So the depth grows by the saves that are left open. -/
theorem Opens.foldl_nest {count : Nat} (h : Opens count commands) (depth : Nat) :
    commands.foldl nest depth = depth + count := by
  induction commands using List.reverseRecOn generalizing count with
  | nil =>
    obtain rfl : count = 0 := (Nat.zero_add count).symm.trans h.restores_add
    rfl
  | append_singleton before command ih =>
    obtain ⟨between, hbefore, hcount⟩ := opens_concat_iff.mp h
    rw [List.foldl_concat, ih hbefore]
    cases command with
    | save =>
      obtain rfl : count = between + 1 := hcount
      rfl
    | restore =>
      obtain rfl : count + 1 = between := hcount
      rfl
    | _ =>
      obtain rfl : count = between := hcount
      rfl

/-- **Every level of the depth was opened by a save**, behind which as many saves are open as there
are levels above it. -/
theorem exists_save {count : Nat} (h : count < depth commands) :
    ∃ before body, commands = before ++ .save :: body ∧ Opens count body := by
  induction commands using List.reverseRecOn generalizing count with
  | nil => cases h
  | append_singleton before command ih =>
    -- any command but the save of the level itself changes how many are open above it
    have above {between : Nat} (hbetween : between < depth before)
        (hcount : count + (if command.isRestore then 1 else 0) =
          between + if command.isSave then 1 else 0) :
        ∃ pre body, before ++ [command] = pre ++ .save :: body ∧ Opens count body := by
      obtain ⟨pre, body, rfl, hopens⟩ := ih hbetween
      exact ⟨pre, body ++ [command], by simp, opens_concat_iff.mpr ⟨between, hopens, hcount⟩⟩
    rw [depth_concat] at h
    cases command with
    | save =>
      cases count with
      | zero => exact ⟨before, [], rfl, opens_nil⟩
      | succ count => exact above (Nat.lt_of_succ_lt_succ h) rfl
    | restore => exact above (Nat.add_lt_of_lt_sub h) rfl
    | _ => exact above h rfl

/-! ## Matching -/

/-- The restore at a place matches a save before it, with balanced commands between them. -/
def IsMatched (commands : List (Command α)) (place : Nat) : Prop :=
  ∃ i < place, commands[i]?.any isSave = true ∧ Balanced ((commands.take place).drop (i + 1))

instance (commands : List (Command α)) (place : Nat) : Decidable (IsMatched commands place) :=
  inferInstanceAs (Decidable (∃ i < place, _ ∧ _))

/-- At a place there is a restore that matches no save before it. -/
def IsUnmatched (commands : List (Command α)) (place : Nat) : Prop :=
  commands[place]?.any isRestore = true ∧ ¬ IsMatched commands place

instance (commands : List (Command α)) (place : Nat) : Decidable (IsUnmatched commands place) :=
  inferInstanceAs (Decidable (_ ∧ _))

/-- The save that is matched, and the balanced commands behind it. -/
theorem isMatched_iff_exists (commands : List (Command α)) (place : Nat) :
    IsMatched commands place ↔
      ∃ before body, commands.take place = before ++ .save :: body ∧ Balanced body := by
  constructor
  · rintro ⟨i, hi, hsave, hbody⟩
    obtain ⟨command, hcommand, hsave⟩ := (Option.any_eq_true _ _).mp hsave
    rw [← List.getElem?_take_of_lt hi] at hcommand
    obtain ⟨hlt, hget⟩ := List.getElem?_eq_some_iff.mp hcommand
    cases command with
    | save =>
      refine ⟨(commands.take place).take i, (commands.take place).drop (i + 1), ?_, hbody⟩
      rw [← hget, List.getElem_cons_drop, List.take_append_drop]
    | _ => cases hsave
  · rintro ⟨before, body, htake, hbody⟩
    have hi : before.length < place := by
      have := congrArg List.length htake
      simp only [List.length_take, List.length_append, List.length_cons] at this
      omega
    have hsave : commands[before.length]? = some .save := by
      rw [← List.getElem?_take_of_lt hi, htake, List.getElem?_append_right (Nat.le_refl _),
        Nat.sub_self]
      rfl
    refine ⟨before.length, hi, (Option.any_eq_true _ _).mpr ⟨_, hsave, rfl⟩, ?_⟩
    rw [htake, List.drop_append, List.drop_of_length_le (Nat.le_succ _), List.nil_append,
      Nat.add_sub_cancel_left]
    exact hbody

/-- **A restore matches a save where one is open.** -/
theorem isMatched_iff (commands : List (Command α)) (place : Nat) :
    IsMatched commands place ↔ depth (commands.take place) ≠ 0 := by
  rw [isMatched_iff_exists]
  constructor
  · rintro ⟨before, body, htake, hbody⟩
    have hdepth : depth (commands.take place) = depth before + 1 + 0 := by
      rw [htake, depth, List.foldl_append]
      exact (opens_zero_iff.mpr hbody).foldl_nest (depth before + 1)
    omega
  · intro hdepth
    obtain ⟨before, body, htake, hopens⟩ := exists_save (Nat.pos_of_ne_zero hdepth)
    exact ⟨before, body, htake, opens_zero_iff.mp hopens⟩

theorem isUnmatched_getElem_iff (commands : List (Command α)) {n : Nat} (hn : n < commands.length) :
    IsUnmatched commands n ↔ commands[n].isRestore = true ∧ depth (commands.take n) = 0 := by
  unfold IsUnmatched
  rw [isMatched_iff, not_not, List.getElem?_eq_getElem hn]
  rfl

theorem lt_length_of_isUnmatched {n : Nat} (h : IsUnmatched commands n) : n < commands.length := by
  obtain ⟨command, hcommand, -⟩ := (Option.any_eq_true _ _).mp h.1
  exact (List.getElem?_eq_some_iff.mp hcommand).1

/-- Behind a restore that matches nothing no save is open. -/
theorem depth_of_isUnmatched {n : Nat} (h : IsUnmatched commands n) :
    depth (commands.take (n + 1)) = 0 := by
  have hn := lt_length_of_isUnmatched h
  obtain ⟨hrestore, hdepth⟩ := (isUnmatched_getElem_iff commands hn).mp h
  rw [List.take_succ_eq_append_getElem hn, depth_concat, hdepth]
  cases hcommand : commands[n] with
  | restore => rfl
  | _ =>
    rw [hcommand] at hrestore
    cases hrestore

/-! ## Restores that match nothing -/

/-- The places before `n` of the restores that match no save. -/
def unmatched (commands : List (Command α)) (n : Nat) : List Nat :=
  (List.range n).filter fun place => IsUnmatched commands place

theorem mem_unmatched {n place : Nat} :
    place ∈ unmatched commands n ↔ place < n ∧ IsUnmatched commands place := by
  simp [unmatched]

theorem length_unmatched_succ (commands : List (Command α)) (n : Nat) :
    (unmatched commands (n + 1)).length =
      (unmatched commands n).length + if IsUnmatched commands n then 1 else 0 := by
  unfold unmatched
  rw [List.range_succ, List.filter_append, List.length_append, List.filter_singleton]
  by_cases h : IsUnmatched commands n <;> simp [h]

theorem length_unmatched_mono (commands : List (Command α)) {m n : Nat} (h : m ≤ n) :
    (unmatched commands m).length ≤ (unmatched commands n).length :=
  ((List.range_sublist.mpr h).filter _).length_le

/-- **What is open and what was restored was saved**, up to the restores that match nothing. -/
theorem depth_add_restores (commands : List (Command α)) (n : Nat) :
    depth (commands.take n) + restores (commands.take n) =
      saves (commands.take n) + (unmatched commands n).length := by
  induction n with
  | zero => rfl
  | succ n ih =>
    rw [length_unmatched_succ]
    by_cases hn : n < commands.length
    · have hstep := nest_add (depth (commands.take n)) commands[n]
      rw [List.take_succ_eq_append_getElem hn, depth_concat, restores_concat, saves_concat]
      simp only [isUnmatched_getElem_iff commands hn]
      omega
    · rw [if_neg (mt lt_length_of_isUnmatched hn), Nat.add_zero, List.take_of_length_le (by omega)]
      rwa [List.take_of_length_le (Nat.le_of_not_lt hn)] at ih

/-- So restores outnumber saves by no more than those that match nothing. -/
theorem restores_sub_saves_le (commands : List (Command α)) {m n : Nat} (h : m ≤ n) :
    restores (commands.take m) - saves (commands.take m) ≤ (unmatched commands n).length := by
  have hcount := depth_add_restores commands m
  have hmono := length_unmatched_mono commands h
  omega

/-- Behind the last one that matches nothing they do so by as many, since no save is open there. -/
theorem exists_restores_sub_saves (commands : List (Command α)) (n : Nat) :
    ∃ m ≤ n, (unmatched commands n).length ≤
      restores (commands.take m) - saves (commands.take m) := by
  induction n with
  | zero => exact ⟨0, Nat.le_refl 0, Nat.le_refl 0⟩
  | succ n ih =>
    by_cases hunmatched : IsUnmatched commands n
    · refine ⟨n + 1, Nat.le_refl _, ?_⟩
      have hcount := depth_add_restores commands (n + 1)
      have hdepth := depth_of_isUnmatched hunmatched
      omega
    · obtain ⟨m, hm, hle⟩ := ih
      refine ⟨m, Nat.le_succ_of_le hm, ?_⟩
      rwa [length_unmatched_succ, if_neg hunmatched]

/-- **The restores that match nothing are the most by which restores have outnumbered saves.** -/
theorem length_unmatched (commands : List (Command α)) (n : Nat) :
    (unmatched commands n).length = (Finset.range (n + 1)).sup fun m =>
      restores (commands.take m) - saves (commands.take m) := by
  refine Nat.le_antisymm ?_ (Finset.sup_le fun m hm => ?_)
  · obtain ⟨m, hm, hle⟩ := exists_restores_sub_saves commands n
    exact hle.trans (Finset.le_sup (f := fun m =>
      restores (commands.take m) - saves (commands.take m))
        (Finset.mem_range.mpr (Nat.lt_succ_of_le hm)))
  · exact restores_sub_saves_le commands (Nat.le_of_lt_succ (Finset.mem_range.mp hm))

end Command

open Command (saves restores depth IsUnmatched unmatched)

/-! ## Warnings -/

/-- The warnings of a restore that matches no save: one for each track. -/
def StackWarning.ofRestore (place : Nat) : List StackWarning :=
  [⟨place, .fill⟩, ⟨place, .stroke⟩, ⟨place, .matrix⟩]

/-- They all tell its place. -/
theorem StackWarning.mem_ofRestore {places : List Nat} {place : Nat} :
    place ∈ (places.flatMap ofRestore).map (·.index) ↔ place ∈ places := by
  rw [List.map_flatMap, List.mem_flatMap]
  simp [ofRestore]

namespace Timeline

/-- How many of the first `n` commands the timeline warns of. -/
def warnedBefore (timeline : Timeline α) (n : Nat) : Nat :=
  ((timeline.warnings.map (·.index)).toFinset.filter (· < n)).card

/-- A timeline that warns of the restores that match nothing warns of as many commands. -/
theorem warnedBefore_eq {commands : List (Command α)} {timeline : Timeline α}
    (h : timeline.warnings =
      (unmatched commands commands.length).flatMap StackWarning.ofRestore) (n : Nat) :
    timeline.warnedBefore n = (unmatched commands n).length := by
  have hplaces : (timeline.warnings.map (·.index)).toFinset.filter (· < n) =
      (unmatched commands n).toFinset := by
    ext place
    rw [Finset.mem_filter, List.mem_toFinset, List.mem_toFinset, h, StackWarning.mem_ofRestore,
      Command.mem_unmatched, Command.mem_unmatched]
    exact ⟨fun ⟨⟨_, hunmatched⟩, hn⟩ => ⟨hn, hunmatched⟩, fun ⟨hn, hunmatched⟩ =>
      ⟨⟨Command.lt_length_of_isUnmatched hunmatched, hunmatched⟩, hn⟩⟩
  rw [warnedBefore, hplaces]
  exact List.toFinset_card_of_nodup (List.nodup_range.filter _)

end Timeline

namespace Pen

/-- The three stacks of a pen have a depth. -/
structure HasDepth (pen : Pen α) (depth : Nat) : Prop where
  matrices : pen.matrices.length = depth
  fills : pen.fills.length = depth
  strokes : pen.strokes.length = depth

/-- A restore finds all three of them empty, or none. -/
theorem HasDepth.emptyTracks_eq {pen : Pen α} {depth : Nat} (h : pen.HasDepth depth) :
    pen.emptyTracks = if depth = 0 then [.fill, .stroke, .matrix] else [] := by
  have isEmpty_eq {β : Type} (stack : List β) (hlength : stack.length = depth) :
      stack.isEmpty = decide (depth = 0) := by
    rw [← hlength, Bool.eq_iff_iff, List.isEmpty_iff_length_eq_zero, decide_eq_true_iff]
  unfold emptyTracks
  rw [isEmpty_eq _ h.matrices, isEmpty_eq _ h.fills, isEmpty_eq _ h.strokes]
  by_cases hdepth : depth = 0
  · simp [hdepth]
  · simp [hdepth]

theorem HasDepth.missing_eq {pen : Pen α} {depth : Nat} (h : pen.HasDepth depth)
    (command : Command α) : pen.missing command =
      if command.isRestore = true ∧ depth = 0 then [.fill, .stroke, .matrix] else [] := by
  cases command with
  | restore => exact h.emptyTracks_eq.trans (by simp [Command.isRestore])
  | _ => rfl

variable [Scalar α]

/-- **Every command changes the depth of all three stacks alike.** -/
theorem HasDepth.apply {pen : Pen α} {depth : Nat} (h : pen.HasDepth depth) (command : Command α) :
    (pen.apply command).HasDepth (command.nest depth) := by
  obtain ⟨hmatrices, hfills, hstrokes⟩ := h
  cases command with
  | save => exact ⟨congrArg (· + 1) hmatrices, congrArg (· + 1) hfills, congrArg (· + 1) hstrokes⟩
  | restore =>
    exact ⟨List.length_tail.trans (congrArg (· - 1) hmatrices),
      List.length_tail.trans (congrArg (· - 1) hfills),
      List.length_tail.trans (congrArg (· - 1) hstrokes)⟩
  | _ => exact ⟨hmatrices, hfills, hstrokes⟩

/-- **The three stacks hold an entry for every save that is open.** -/
theorem hasDepth_run (commands : List (Command α)) :
    ((start : Pen α).run commands).HasDepth (depth commands) := by
  induction commands using List.reverseRecOn with
  | nil => exact ⟨rfl, rfl, rfl⟩
  | append_singleton before command ih =>
    rw [Command.depth_concat, run, List.foldl_concat]
    exact ih.apply command

end Pen

namespace Timeline

variable [Scalar α]

/-- **The warnings from a command on** are those of the restores that match nothing, also not in the
commands before. -/
theorem warningsFrom_eq (before commands : List (Command α)) :
    warningsFrom before.length (Pen.start.run before) commands =
      ((List.range' before.length commands.length).filter fun place =>
        IsUnmatched (before ++ commands) place).flatMap StackWarning.ofRestore := by
  induction commands generalizing before with
  | nil => rfl
  | cons command rest ih =>
    have hrest := ih (before ++ [command])
    rw [Pen.run, List.foldl_concat, List.append_assoc, List.singleton_append, List.length_append]
      at hrest
    have hunmatched : IsUnmatched (before ++ command :: rest) before.length ↔
        command.isRestore = true ∧ depth before = 0 := by
      rw [Command.isUnmatched_getElem_iff _ (by simp), List.take_left' rfl,
        List.getElem_append_right (Nat.le_refl _)]
      simp
    rw [warningsFrom, (Pen.hasDepth_run before).missing_eq, List.length_cons, List.range'_succ,
      List.filter_cons]
    by_cases h : command.isRestore = true ∧ depth before = 0
    · rw [if_pos h, if_pos (decide_eq_true (hunmatched.mpr h)), List.flatMap_cons]
      exact congrArg (StackWarning.ofRestore before.length ++ ·) hrest
    · rw [if_neg h, if_neg (by simpa only [decide_eq_true_eq, hunmatched] using h)]
      exact hrest

/-- **A timeline warns of the restores that match nothing**, in order and for each track, and of
nothing else. After each of its beginnings a program has stacks of the same depth, and as many of
its first commands are warned of as restores have outnumbered saves at most, from none on. -/
theorem compile_nesting {defaults : PerPaint String} {commands : List (Command α)}
    {timeline : Timeline α} (h : compile defaults commands = .ok timeline) :
    (∀ k, ((Pen.start : Pen α).run (commands.take k)).HasDepth (depth (commands.take k))) ∧
    timeline.warnings = (unmatched commands commands.length).flatMap StackWarning.ofRestore ∧
    ∀ n, timeline.warnedBefore n = (Finset.range (n + 1)).sup fun m =>
      restores (commands.take m) - saves (commands.take m) := by
  obtain ⟨steps, -, h⟩ := bind_eq_ok.mp h
  cases h
  have hwarnings := warningsFrom_eq [] commands
  rw [List.length_nil, ← List.range_eq_range'] at hwarnings
  exact ⟨fun k => Pen.hasDepth_run _, hwarnings, fun n =>
    (warnedBefore_eq hwarnings n).trans (Command.length_unmatched commands n)⟩

end Timeline

/-- A program with restores that match nothing at its start, between blocks and behind them. -/
def overrestoredProgram : List (Command Float) := [
  .restore,
  .save,
  .style .fill "red",
  .save,
  .move (.translate (.int 10) (.real 0.5)),
  .restore,
  .restore,
  .restore,
  .invalid [.text "restore", .int 1] "too many arguments",
  .save,
  .restore,
  .restore,
  .save,
  .draw .fill (.rect (.int 0) (.int 0) (.int 4) (.int 4)) none]

/-- Three restores match nothing; the last of them is the twelfth command. -/
theorem compile_nesting_overrestored :
    ∃ timeline, Timeline.compile ⟨"black", "#888"⟩ overrestoredProgram = .ok timeline ∧
      (∀ k, ((Pen.start : Pen Float).run (overrestoredProgram.take k)).HasDepth
        (depth (overrestoredProgram.take k))) ∧
      timeline.warnings = [0, 7, 11].flatMap StackWarning.ofRestore ∧
      timeline.warnedBefore 11 = 2 ∧ timeline.warnedBefore 14 = 3 := by
  have hcolors : ∀ command ∈ overrestoredProgram, ∀ style ∈ command.colors,
      Rgba.isStyle style = true := by decide +kernel
  obtain ⟨timeline, hcompile, -⟩ := Timeline.exists_compile isStyle_defaults hcolors
  obtain ⟨hdepth, hwarnings, hcount⟩ := Timeline.compile_nesting hcompile
  have hunmatched : unmatched overrestoredProgram overrestoredProgram.length = [0, 7, 11] := by
    decide
  exact ⟨timeline, hcompile, hdepth, hwarnings.trans (by rw [hunmatched]),
    (hcount 11).trans (by decide), (hcount 14).trans (by decide)⟩

end CanvasScript
