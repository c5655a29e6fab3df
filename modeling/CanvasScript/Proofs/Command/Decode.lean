import CanvasScript.Command.Wire
import CanvasScript.Proofs.Except

/-!
# How an instruction is decoded

An instruction is one of a kind when it is a row with the name of that kind. Then its arguments
decide what `decode_command` gives, and otherwise it is refused for its form or its name.

* `decode_of_items`: **an instruction of a kind is decoded from its arguments**.
* `exists_fault_of_nameless`: **any other instruction breaks a rule**.
* `decode_eq_ok`: **what it takes for an instruction to have a command**.
-/

namespace CanvasScript

variable {α : Type}

theorem Kind.name_ne_empty (kind : Kind) : kind.name ≠ "" := by
  cases kind with
  | style paint | rect paint | triangle paint | arc paint => cases paint <;> decide
  | _ => decide

namespace Command

variable [Written α] {instruction : Instruction α}

/-- **An instruction of a kind is decoded from its arguments.** -/
theorem decode_of_items {kind : Kind} {values : List (Value α)}
    (h : instruction.items? = some (.text kind.name :: values)) :
    decode instruction = ofArguments kind values := by
  unfold decode
  rw [h]
  simp only [if_neg kind.name_ne_empty, Kind.ofName?_name]

/-- **An instruction of no kind breaks a rule**: it is no row, an empty one, or one with no name. -/
theorem exists_fault_of_nameless
    (h : ∀ kind values, instruction.items? ≠ some (.text (Kind.name kind) :: values)) :
    ∃ fault, decode instruction = .error (.fault fault) := by
  unfold decode
  split
  · exact ⟨_, rfl⟩
  · exact ⟨_, rfl⟩
  · rename_i name values hitems
    split
    · exact ⟨_, rfl⟩
    · split
      · rename_i kind hkind
        rw [← Kind.name_of_ofName? hkind] at hitems
        exact absurd hitems (h kind values)
      · exact ⟨_, rfl⟩
  · exact ⟨_, rfl⟩

theorem ofArguments_eq_ok {kind : Kind} {values : List (Value α)} {command : Command α} :
    ofArguments kind values = .ok command ↔ values.length ≤ kind.slots.length ∧
      ∃ arguments, Arguments.readAll kind kind.slots values = .ok arguments ∧
        kind.command arguments = command := by
  unfold ofArguments
  by_cases hlength : kind.slots.length < values.length
  · rw [if_pos hlength]
    constructor
    · intro h
      cases h
    · rintro ⟨hle, -⟩
      omega
  · rw [if_neg hlength, map_eq_ok]
    exact ⟨fun h => ⟨Nat.not_lt.mp hlength, h⟩, fun h => h.2⟩

/-- **What it takes for an instruction to have a command**: it is a row of a kind, with no more
arguments than slots, and they are read from the first to the last. -/
theorem decode_eq_ok {command : Command α} :
    decode instruction = .ok command ↔ ∃ kind values arguments,
      instruction.items? = some (.text (Kind.name kind) :: values) ∧
      values.length ≤ kind.slots.length ∧
      Arguments.readAll kind kind.slots values = .ok arguments ∧
      kind.command arguments = command := by
  constructor
  · intro h
    by_cases hkind : ∃ kind values, instruction.items? = some (.text (Kind.name kind) :: values)
    · obtain ⟨kind, values, hitems⟩ := hkind
      rw [decode_of_items hitems] at h
      obtain ⟨hlength, arguments, hread, hcommand⟩ := ofArguments_eq_ok.mp h
      exact ⟨kind, values, arguments, hitems, hlength, hread, hcommand⟩
    · obtain ⟨fault, hfault⟩ := exists_fault_of_nameless fun kind values hitems =>
        hkind ⟨kind, values, hitems⟩
      rw [hfault] at h
      cases h
  · rintro ⟨kind, values, arguments, hitems, hlength, hread, hcommand⟩
    rw [decode_of_items hitems]
    exact ofArguments_eq_ok.mpr ⟨hlength, arguments, hread, hcommand⟩

end Command

end CanvasScript
