import CanvasScript.Proofs.Command.Wire
import CanvasScript.Scalar.Binary64

/-!
# Round trips of instructions

A command is written in one form (`encode_command`): its name and its arguments, without nulls at
the end. Nulls inside a row keep their places, such as that of an omitted direction before a colour.

* `getLast?_items`: **what is written does not end in a null**.
* `decode_eq_ok_iff`: **the instructions of a command** are what is written of it, with as many
  nulls behind it as there are slots left.
* `decode_roundTrip`: so a decoded command is decoded again from what is written, and what is
  written is the instruction without the nulls at its end.
-/

namespace CanvasScript

variable {α : Type}

namespace Command

/-- Without the nulls at its end a row does not end in one. -/
theorem getLast?_dropNulls (values : List (Value α)) :
    (dropNulls values).getLast? ≠ some .null := by
  intro h
  unfold dropNulls at h
  rw [List.getLast?_reverse] at h
  have hhead := List.head?_dropWhile_not Value.isNull values.reverse
  rw [h] at hhead
  exact Bool.noConfusion hhead

/-- A name is no null. -/
theorem dropNulls_text_cons (name : String) (values : List (Value α)) :
    dropNulls (.text name :: values) = .text name :: dropNulls values := by
  unfold dropNulls
  rw [List.reverse_cons, List.dropWhile_append]
  split
  · rename_i hempty
    rw [List.isEmpty_iff.mp hempty]
    rfl
  · rw [List.reverse_append]
    rfl

/-- **What is written of a command does not end in a null.** -/
theorem getLast?_items {command : Command α} (h : command.isInvalid = false) :
    command.items.getLast? ≠ some .null := by
  obtain ⟨kind, arguments, rfl⟩ := exists_arguments h
  rw [items_command, ← dropNulls_text_cons]
  exact getLast?_dropNulls _

theorem kind?_command (kind : Kind) (arguments : Arguments α kind.slots) :
    (kind.command arguments).kind? = some kind := by
  cases kind <;> rfl

section

variable [Written α] {instruction : Instruction α} {command : Command α}

/-- A command that fits is read from its items with nulls behind them, as many as there are slots
left. -/
theorem decode_items_append (h : command.Fits) {kind : Kind} (hkind : command.kind? = some kind)
    {count : Nat} (hcount : command.items.length + count ≤ kind.slots.length + 1)
    (hitems : instruction.items? = some (command.items ++ List.replicate count .null)) :
    decode instruction = .ok command := by
  have hvalid : command.isInvalid = false := by
    cases command with
    | invalid items reason => cases hkind
    | _ => rfl
  obtain ⟨kind', arguments, rfl⟩ := exists_arguments hvalid
  obtain rfl : kind' = kind := Option.some.inj ((kind?_command kind' arguments).symm.trans hkind)
  obtain ⟨all, hall⟩ := exists_nulls (Arguments.values kind'.slots arguments)
  have hlength := congrArg List.length hall
  have hread := Arguments.readAll_values kind' (kind'.fits_arguments h)
  rw [items_command] at hcount hitems
  rw [Arguments.length_values, List.length_append, List.length_replicate] at hlength
  rw [List.length_cons] at hcount
  -- the nulls that are given are some of those that the slots have room for
  have hsplit : List.replicate all (.null : Value α) =
      List.replicate count .null ++ List.replicate (all - count) .null := by
    rw [List.replicate_append_replicate, Nat.add_sub_cancel' (by omega)]
  rw [hall, hsplit, ← List.append_assoc] at hread
  have hroom : (dropNulls (Arguments.values kind'.slots arguments) ++
      List.replicate count Value.null).length ≤ kind'.slots.length := by
    rw [List.length_append, List.length_replicate]
    omega
  exact decode_eq_ok.mpr
    ⟨kind', _, arguments, hitems, hroom, Arguments.readAll_of_nulls hread, rfl⟩

/-- **The instructions of a command**: its numbers are finite and its colours are styles, and it is
written with as many nulls behind it as there are slots left. -/
theorem decode_eq_ok_iff :
    decode instruction = .ok command ↔ command.Fits ∧ ∃ kind count, command.kind? = some kind ∧
      command.items.length + count ≤ kind.slots.length + 1 ∧
      instruction.items? = some (command.items ++ List.replicate count .null) := by
  constructor
  · intro h
    obtain ⟨kind, values, arguments, hitems, hlength, hread, rfl⟩ := decode_eq_ok.mp h
    have hwritten := items_of_readAll hread hlength
    obtain ⟨count, hcount⟩ := exists_nulls values
    refine ⟨fits_of_decode h, kind, count, kind?_command kind arguments, ?_, ?_⟩
    · have hlengths := congrArg List.length hcount
      rw [List.length_append, List.length_replicate] at hlengths
      rw [hwritten, List.length_cons]
      omega
    · rw [hitems, hwritten, List.cons_append, ← hcount]
  · rintro ⟨hfits, kind, count, hkind, hcount, hitems⟩
    exact decode_items_append hfits hkind hcount hitems

/-- **A decoded command is decoded again from what is written**, also with nulls in the slots that
are left. What is written is the instruction without the nulls at its end. -/
theorem decode_roundTrip (h : decode instruction = .ok command) :
    decode (.row command.items) = .ok command ∧
      (∃ count, instruction.items? = some (command.items ++ List.replicate count .null)) ∧
      command.items.getLast? ≠ some .null ∧
      ∃ kind, command.kind? = some kind ∧
        ∀ count, command.items.length + count ≤ kind.slots.length + 1 →
          decode (.row (command.items ++ List.replicate count .null)) = .ok command := by
  obtain ⟨hfits, kind, count, hkind, -, hitems⟩ := decode_eq_ok_iff.mp h
  obtain ⟨-, -, -, -, hvalid⟩ := items_of_decode h
  exact ⟨decode_items hfits hvalid, ⟨count, hitems⟩, getLast?_items hvalid, kind, hkind,
    fun count hcount => decode_items_append hfits hkind hcount rfl⟩

end

end Command

/-- An arc whose direction is omitted before a colour. -/
def undirectedArc : Instruction Float :=
  .value (.array [.text "strokeArc", .int 0, .real (-0.5), .int 5, .int 0, .int 270, .null,
    .text "#f80"])

/-- The null of the direction stays before the colour. -/
theorem decode_roundTrip_undirected :
    ∃ command, Command.decode undirectedArc = .ok command ∧ command.items.length = 8 ∧
      Command.decode (.row command.items) = .ok command ∧
      (∃ count, undirectedArc.items? = some (command.items ++ List.replicate count .null)) ∧
      command.items.getLast? ≠ some .null ∧
      ∃ kind, command.kind? = some kind ∧
        ∀ count, command.items.length + count ≤ kind.slots.length + 1 →
          Command.decode (.row (command.items ++ List.replicate count .null)) = .ok command := by
  have hlength : ((Command.decode undirectedArc).map (·.items.length)).toOption = some 8 := by
    decide +kernel
  cases hdecode : Command.decode undirectedArc with
  | error refusal =>
    rw [hdecode] at hlength
    cases hlength
  | ok command =>
    rw [hdecode] at hlength
    exact ⟨command, rfl, Option.some.inj hlength, Command.decode_roundTrip hdecode⟩

end CanvasScript
