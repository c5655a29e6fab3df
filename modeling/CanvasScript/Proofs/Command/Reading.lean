import CanvasScript.Proofs.Command.Export
import CanvasScript.Proofs.Command.NormalForm
import CanvasScript.Proofs.Command.Precedence

/-!
# Reading any text

Whatever a text is, reading it (`parse_program_text`) ends in a program or in the list of its
errors. A line is silent, holds the instruction of a command, or breaks a rule; no line fails in
another way, since an integer that it gives equals a scalar.

* `Line.read?_cases`: **what becomes of a line**.
* `Line.readFrom_eq`: lines are read one by one, and none of them counts for another one.
* `Line.exists_commands_of_read`: where no line is refused, each one that is not silent has a
  command.
* `readLines_total`: **a text is read, or refused with one error for each line that fails**, in
  order; what is read makes up a program under `strict`.
-/

namespace CanvasScript

open Text

namespace Line

variable {line : List Char} {row : List (Value Float)}

/-! ## One line -/

/-- A line is not refused for an integer beyond the scalars, as its integers equal scalars. -/
theorem decode_ne_arithmetic {s : List Char} (h : items s = .ok row) (fault : ArithmeticFault) :
    Command.decode (.row row) ≠ .error (.arithmetic fault) := by
  intro hdecode
  obtain ⟨i, n, -, hplace, hholds⟩ := Command.exists_slot_of_arithmetic hdecode
  obtain ⟨x, hx⟩ : (Value.number (.int n) : Value Float).IsRead :=
    isRead_items h _ (List.mem_of_getElem? hplace)
  exact Bool.noConfusion (hholds.symm.trans (Binary64.holds_of_toRat? hx))

/-- **What becomes of a line**: it is silent, holds the instruction of a command, or breaks a
rule. -/
theorem read?_cases (line : List Char) :
    (isSilent (trim line) = true ∧ read? (α := Float) line = .ok none) ∨
    isSilent (trim line) = false ∧
      ((∃ row command, read? (α := Float) line = .ok (some row) ∧
        Command.decode (.row row) = .ok command) ∨
      ∃ fault, read? (α := Float) line = .error (.fault fault)) := by
  by_cases hsilent : isSilent (trim line) = true
  · exact .inl ⟨hsilent, if_pos hsilent⟩
  · refine .inr ⟨Bool.not_eq_true _ ▸ hsilent, ?_⟩
    cases hitems : items (α := Float) (trim line) with
    | error fault => exact .inr ⟨fault, by simp only [read?, if_neg hsilent, hitems]⟩
    | ok row =>
      cases hdecode : Command.decode (.row row) with
      | ok command =>
        refine .inl ⟨row, command, ?_, hdecode⟩
        simp only [read?, if_neg hsilent, hitems, hdecode]
        rfl
      | error refusal =>
        cases refusal with
        | fault fault =>
          refine .inr ⟨fault, ?_⟩
          simp only [read?, if_neg hsilent, hitems, hdecode]
          rfl
        | arithmetic fault => exact absurd hdecode (decode_ne_arithmetic hitems fault)

/-- The rule that a line breaks, if it is refused. -/
def fault? (line : List Char) : Option (Fault Float) :=
  match read? line with
  | .error (.fault fault) => some fault
  | _ => none

/-- The row of a line that holds an instruction. -/
def row? (line : List Char) : Option (List (Value Float)) :=
  match read? line with
  | .ok row => row
  | _ => none

theorem fault?_eq_some {fault : Fault Float} :
    fault? line = some fault ↔ read? line = .error (.fault fault) := by
  unfold fault?
  rcases read?_cases line with ⟨-, h⟩ | ⟨-, ⟨row, command, h, -⟩ | ⟨fault', h⟩⟩ <;> simp [h]

/-! ## Many lines -/

/-- **Lines are read one by one**: the rows of those that hold an instruction, and the errors of
those that are refused. -/
theorem readFrom_eq (number : Nat) (lines : List (List Char)) :
    readFrom number lines =
      .ok (lines.filterMap row?, Command.errorsOf (places fault? number lines)) := by
  induction lines generalizing number with
  | nil => rfl
  | cons line rest ih =>
    rw [readFrom, Command.errorsOf_places_cons]
    rcases read?_cases line with ⟨-, h⟩ | ⟨-, ⟨row, command, h, -⟩ | ⟨fault, h⟩⟩
    · simp only [h, ih, fault?, row?, List.filterMap_cons]
      rfl
    · simp only [h, ih, fault?, row?, List.filterMap_cons]
      rfl
    · simp only [h, ih, fault?, row?, List.filterMap_cons]
      rfl

/-- **Where no line is refused, each one that is not silent has a command.** -/
theorem exists_commands_of_read {lines : List (List Char)}
    (h : ∀ line ∈ lines, fault? line = none) :
    List.Forall₂ (fun line row => read? line = .ok (some row))
        (lines.filter fun line => !isSilent (trim line)) (lines.filterMap row?) ∧
      ∃ commands, List.Forall₂ (fun row command => Command.decode (.row row) = .ok command)
        (lines.filterMap row?) commands := by
  induction lines with
  | nil => exact ⟨.nil, [], .nil⟩
  | cons line rest ih =>
    obtain ⟨hline, hrest⟩ := List.forall_mem_cons.mp h
    obtain ⟨hrows, commands, hcommands⟩ := ih hrest
    rcases read?_cases line with
      ⟨hsilent, hread⟩ | ⟨hsilent, ⟨row, command, hread, hdecode⟩ | ⟨fault, hread⟩⟩
    · have hrow : row? line = none := by simp [row?, hread]
      rw [List.filterMap_cons_none hrow, List.filter_cons_of_neg (by simp [hsilent])]
      exact ⟨hrows, commands, hcommands⟩
    · have hrow : row? line = some row := by simp [row?, hread]
      rw [List.filterMap_cons_some hrow, List.filter_cons_of_pos (by simp [hsilent])]
      exact ⟨.cons hread hrows, command :: commands, .cons hdecode hcommands⟩
    · rw [fault?_eq_some.mpr hread] at hline
      cases hline

end Line

/-- **Any text is read, or refused with one error for each line that fails.** The errors come in the
order of their lines, each with the number of its line from `1` on, and a line fails whatever stands
on the others. What is read makes up a program under `strict`, of one command for each line that is
neither blank nor a comment. -/
theorem readLines_total (text : String) :
    ∃ refused : List (Nat × Fault Float),
      (∀ number fault, (number, fault) ∈ refused ↔ ∃ i line, (lines text.toList)[i]? = some line ∧
        number = 1 + i ∧ Line.read? line = .error (.fault fault)) ∧
      refused.Pairwise (fun p q => p.1 < q.1) ∧
      (refused ≠ [] → readLines text = .error (.invalid (refused.map fun (number, fault) =>
        ⟨some (number : Int), fault⟩))) ∧
      (refused = [] → ∃ rows commands, readLines (α := Float) text = .ok rows ∧
        Command.decodeAll .strict (rows.map .row) = .ok ⟨commands, []⟩ ∧
        (∀ command ∈ commands, command.isInvalid = false) ∧
        List.Forall₂ (fun line row => Line.read? line = .ok (some row))
          ((lines text.toList).filter fun line => !Line.isSilent (trim line)) rows ∧
        List.Forall₂ (fun row command => Command.decode (.row row) = .ok command)
          rows commands) := by
  have hread := Line.readFrom_eq 1 (lines text.toList)
  refine ⟨places Line.fault? 1 (lines text.toList), fun number fault => ?_, pairwise_places _ _ _,
    fun hrefused => ?_, fun hrefused => ?_⟩
  · simp only [mem_places, Line.fault?_eq_some]
  · obtain ⟨first, others, hcons⟩ := List.exists_cons_of_ne_nil hrefused
    unfold readLines
    rw [hread, hcons]
    rfl
  · obtain ⟨hrows, commands, hcommands⟩ :=
      Line.exists_commands_of_read (places_eq_nil_iff.mp hrefused)
    have hdecode := Command.decodeAll_of_forall₂ (List.forall₂_map_left_iff.mpr hcommands) .strict
    refine ⟨_, commands, ?_, hdecode, Command.isInvalid_of_decodeAll hdecode, hrows, hcommands⟩
    unfold readLines
    rw [hread, hrefused]
    rfl

/-- A call that is not closed, a note, a command and a parameter that is no number. -/
def brokenText : String := "rotate(90\n# note\nsave();\nrotate(x)"

theorem readLines_total_broken :
    ∃ refused : List (Nat × Fault Float),
      readLines brokenText = .error (.invalid (refused.map fun (number, fault) =>
        ⟨some (number : Int), fault⟩)) ∧
      (1, .unreadable "rotate(90") ∈ refused ∧ (4, .notNumeral "rotate" "x") ∈ refused ∧
      ∀ fault, (3, fault) ∉ refused := by
  obtain ⟨refused, hmem, -, herror, -⟩ := readLines_total brokenText
  have hlines : lines brokenText.toList = ["rotate(90".toList, "# note".toList, "save();".toList,
      "rotate(x)".toList] := by decide +kernel
  have hfirst : (1, .unreadable "rotate(90") ∈ refused :=
    (hmem _ _).mpr ⟨0, "rotate(90".toList, by rw [hlines]; rfl, rfl, rfl⟩
  have hlast : (4, .notNumeral "rotate" "x") ∈ refused :=
    (hmem _ _).mpr ⟨3, "rotate(x)".toList, by rw [hlines]; rfl, rfl, rfl⟩
  refine ⟨refused, herror (List.ne_nil_of_mem hfirst), hfirst, hlast, fun fault hsave => ?_⟩
  obtain ⟨i, line, hget, hi, hread⟩ := (hmem _ _).mp hsave
  obtain rfl : i = 2 := by omega
  rw [hlines] at hget
  cases hget
  cases hread

end CanvasScript
