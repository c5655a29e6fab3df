import CanvasScript.Proofs.Command.RoundTrip
import CanvasScript.Proofs.Command.Skip

/-!
# Writing a decoded program back

A program that was decoded under the policy `skip` may be written back (`encode_command_list`), with
its refused places, and decoded again (`decode_command_list`). A command is written as a row, and a
refused instruction as the items that keep its place, so a free value comes back alone in a row.

* `Command.writtenBack` is the instruction that a command is written back as.
* `Instruction.bareStack?` is the save or the restore whose name is a free text. Alone in a row it
  is a command.
* `decodeAll_writtenBack`: **what is written back has the same slots**, but for these bare names:
  they were refused, and become the commands that they name.
-/

namespace CanvasScript

variable {α : Type}

/-- The instruction that a command is written back as. -/
def Command.writtenBack (command : Command α) : Instruction α := .value (.array command.items)

/-- The save or the restore that an instruction names without being a row. -/
def Instruction.bareStack? : Instruction α → Option (Command α)
  | .value (.text name) =>
    if name = Kind.save.name then some .save
    else if name = Kind.restore.name then some .restore
    else none
  | _ => none

/-- How the slot of an instruction comes back. -/
structure WrittenBack (instruction : Instruction α) (command again : Command α) : Prop where
  /-- A command is the same. -/
  valid : command.isInvalid = false → again = command
  /-- A refused instruction is refused, unless it is the bare name of a save or a restore. -/
  invalid : again.isInvalid = true ↔
    command.isInvalid = true ∧ instruction.bareStack? = none
  /-- A bare name was refused, and becomes the command. -/
  bare : ∀ stack, instruction.bareStack? = some stack → command.isInvalid = true ∧ again = stack
  /-- The items stay as they are. -/
  items : again.items = command.items

namespace Command

variable [Written α] {instruction other : Instruction α}

/-! ## Instructions with the same items -/

/-- A command depends on the items only. -/
theorem decode_eq_ok_congr (h : instruction.items? = other.items?) {command : Command α} :
    decode instruction = .ok command ↔ decode other = .ok command := by
  rw [decode_eq_ok, decode_eq_ok, h]

/-- Whether a rule is broken depends on the items only. -/
theorem exists_fault_congr (h : instruction.items? = other.items?) {fault : Fault α}
    (hfault : decode instruction = .error (.fault fault)) :
    ∃ fault', decode other = .error (.fault fault') := by
  by_cases hkind : ∃ kind values, other.items? = some (.text (Kind.name kind) :: values)
  · obtain ⟨kind, values, hitems⟩ := hkind
    rw [decode_of_items hitems, ← decode_of_items (h.trans hitems)]
    exact ⟨fault, hfault⟩
  · exact exists_fault_of_nameless fun kind values hitems => hkind ⟨kind, values, hitems⟩

omit [Written α] in
/-- A row is the items that keep its place. -/
theorem items_of_items? {items : List (Value α)} (h : instruction.items? = some items) :
    instruction.items = items := by
  cases instruction with
  | row items' => exact Option.some.inj h
  | value v =>
    cases v with
    | array items' => exact Option.some.inj h
    | _ => cases h

/-! ## Free values -/

/-- A name that is not that of a save or a restore breaks a rule where it stands alone. -/
theorem exists_fault_of_alone {name : String} (hsave : name ≠ Kind.save.name)
    (hrestore : name ≠ Kind.restore.name) :
    ∃ fault, decode (α := α) (.value (.array [.text name])) = .error (.fault fault) := by
  by_cases hkind : ∃ kind, Kind.name kind = name
  · obtain ⟨kind, rfl⟩ := hkind
    have hitems : (Instruction.value (.array [.text kind.name]) : Instruction α).items? =
        some (.text kind.name :: []) := rfl
    rw [decode_of_items hitems]
    cases kind with
    | save => exact absurd rfl hsave
    | restore => exact absurd rfl hrestore
    | _ => exact ⟨_, rfl⟩
  · refine exists_fault_of_nameless fun kind values hitems => hkind ⟨kind, ?_⟩
    cases hitems
    rfl

/-- **A free value in a row of its own** is the command whose bare name it is, or breaks a rule. -/
theorem decode_alone {v : Value α} (h : ∀ items, v ≠ .array items) :
    (∃ stack, (Instruction.value v).bareStack? = some stack ∧
      stack.items = [v] ∧ decode (.value (.array [v])) = .ok stack) ∨
    ((Instruction.value v).bareStack? = none ∧
      ∃ fault, decode (.value (.array [v])) = .error (.fault fault)) := by
  cases v with
  | text name =>
    by_cases hsave : name = Kind.save.name
    · subst hsave
      exact .inl ⟨.save, rfl, rfl, rfl⟩
    · by_cases hrestore : name = Kind.restore.name
      · subst hrestore
        exact .inl ⟨.restore, rfl, rfl, rfl⟩
      · refine .inr ⟨?_, exists_fault_of_alone hsave hrestore⟩
        exact (if_neg hsave).trans (if_neg hrestore)
  | array items => exact absurd rfl (h items)
  | _ => exact .inr ⟨rfl, _, rfl⟩

/-! ## Slots -/

omit [Written α] in
/-- A row is no bare name. -/
theorem bareStack?_of_items? {items : List (Value α)} (h : instruction.items? = some items) :
    instruction.bareStack? = none := by
  cases instruction with
  | row items' => rfl
  | value v =>
    cases v with
    | text name => cases h
    | _ => rfl

omit [Written α] in
/-- What is no row is kept as a free value. -/
theorem exists_value_of_items? (h : instruction.items? = none) :
    ∃ v, instruction = .value v ∧ (∀ items, v ≠ .array items) ∧ instruction.items = [v] := by
  cases instruction with
  | row items => cases h
  | value v =>
    cases v with
    | array items => cases h
    | _ =>
      refine ⟨_, rfl, ?_, rfl⟩
      intro items heq
      cases heq

/-- **A refused instruction is decoded again** from the items that keep its place: it is refused, or
the bare name of a command. -/
theorem decode_kept {fault : Fault α} (hfault : decode instruction = .error (.fault fault)) :
    (∃ stack, instruction.bareStack? = some stack ∧ stack.items = instruction.items ∧
      decode (.value (.array instruction.items)) = .ok stack) ∨
    (instruction.bareStack? = none ∧
      ∃ fault', decode (.value (.array instruction.items)) = .error (.fault fault')) := by
  cases hitems : instruction.items? with
  | some items =>
    have hsame : instruction.items? =
        (Instruction.value (.array instruction.items) : Instruction α).items? := by
      rw [hitems, items_of_items? hitems]
      rfl
    exact .inr ⟨bareStack?_of_items? hitems, exists_fault_congr hsame hfault⟩
  | none =>
    obtain ⟨v, rfl, hfree, hkept⟩ := exists_value_of_items? hitems
    rw [hkept]
    exact decode_alone hfree

/-- A refused instruction keeps its place. -/
theorem decodeSlot_of_fault {fault : Fault α} (h : decode instruction = .error (.fault fault))
    (place : Nat) : decodeSlot place instruction =
      .ok (.invalid instruction.items fault.detail, some ⟨some (place : Int), fault⟩) := by
  unfold decodeSlot
  rw [h]

/-- **A slot comes back** from what is written of it. -/
theorem exists_decodeSlot_writtenBack {index : Nat} {command : Command α}
    {error : Option (CommandError α)}
    (h : decodeSlot index instruction = .ok (command, error)) (place : Nat) :
    ∃ again error', decodeSlot place command.writtenBack = .ok (again, error') ∧
      WrittenBack instruction command again := by
  unfold decodeSlot at h
  split at h
  · rename_i hdecode
    cases h
    have hsame : (Instruction.row command.items : Instruction α).items? =
      command.writtenBack.items? := rfl
    have hagain := (decode_eq_ok_congr hsame).mp (decode_roundTrip hdecode).1
    have hvalid := isInvalid_of_decode hdecode
    obtain ⟨kind, values, -, hitems, -⟩ := decode_eq_ok.mp hdecode
    have hbare := bareStack?_of_items? hitems
    refine ⟨command, none, by simp only [decodeSlot, hagain], ?_⟩
    exact ⟨fun _ => rfl, by simp [hvalid], by simp [hbare], rfl⟩
  · rename_i fault hfault
    cases h
    have hwritten : (invalid instruction.items fault.detail).writtenBack =
      .value (.array instruction.items) := rfl
    rw [hwritten]
    obtain ⟨stack, hbare, hitems, hagain⟩ | ⟨hbare, fault', hagain⟩ := decode_kept hfault
    · have hvalid := isInvalid_of_decode hagain
      refine ⟨stack, none, by simp only [decodeSlot, hagain], ?_⟩
      exact ⟨fun hvalid => Bool.noConfusion hvalid, by simp [hbare, hvalid],
        fun stack' hstack => ⟨rfl, Option.some.inj (hbare.symm.trans hstack)⟩, hitems⟩
    · have hslot := decodeSlot_of_fault hagain place
      refine ⟨.invalid instruction.items fault'.detail, _, hslot, ?_⟩
      exact ⟨fun hvalid => Bool.noConfusion hvalid, by simp [hbare, isInvalid], by simp [hbare],
        rfl⟩
  · cases h

/-- **The slots of a program come back**, each from what is written of it. -/
theorem exists_decodeFrom_writtenBack {instructions : List (Instruction α)} {index : Nat}
    {decoded : Decoded α} (h : decodeFrom index instructions = .ok decoded) (place : Nat) :
    ∃ again, decodeFrom place (decoded.commands.map writtenBack) = .ok again ∧
      decoded.commands.length = instructions.length ∧ again.items = decoded.items ∧
      List.Forall₂ (fun slot command => WrittenBack slot.1 slot.2 command)
        (instructions.zip decoded.commands) again.commands := by
  induction instructions generalizing index place decoded with
  | nil =>
    cases h
    exact ⟨⟨[], []⟩, rfl, rfl, rfl, .nil⟩
  | cons instruction rest ih =>
    obtain ⟨⟨command, error⟩, hslot, h⟩ := bind_eq_ok.mp h
    obtain ⟨more, hmore, h⟩ := bind_eq_ok.mp h
    cases h
    obtain ⟨command', error', hslot', hback⟩ := exists_decodeSlot_writtenBack hslot place
    obtain ⟨more', hmore', hlength, hitems, hall⟩ := ih hmore (place + 1)
    refine ⟨⟨command' :: more'.commands, error'.toList ++ more'.errors⟩, ?_,
      congrArg (· + 1) hlength, congrArg₂ List.cons hback.items hitems, .cons hback hall⟩
    exact bind_eq_ok.mpr ⟨_, hslot', bind_eq_ok.mpr ⟨_, hmore', rfl⟩⟩

/-- The policy `skip` keeps what was decoded. -/
theorem decodeAll_skip_eq_ok {instructions : List (Instruction α)} {decoded : Decoded α} :
    decodeAll .skip instructions = .ok decoded ↔ decodeFrom 0 instructions = .ok decoded := by
  unfold decodeAll
  cases decodeFrom 0 instructions with
  | error fault => simp
  | ok decoded' => simp

/-- **A program that was decoded under `skip` is decoded again** from what is written of it, with as
many slots. A slot that was a command is the same command, and a refused one is refused again unless
its instruction is the bare name of a save or a restore, which becomes that command. -/
theorem decodeAll_writtenBack {instructions : List (Instruction α)} {decoded : Decoded α}
    (h : decodeAll .skip instructions = .ok decoded) :
    ∃ again, decodeAll .skip (decoded.commands.map writtenBack) = .ok again ∧
      decoded.commands.length = instructions.length ∧
      again.commands.length = decoded.commands.length ∧ again.items = decoded.items ∧
      List.Forall₂ (fun slot command => WrittenBack slot.1 slot.2 command)
        (instructions.zip decoded.commands) again.commands := by
  obtain ⟨again, hagain, hlength, hitems, hall⟩ :=
    exists_decodeFrom_writtenBack (decodeAll_skip_eq_ok.mp h) 0
  have hzip : (instructions.zip decoded.commands).length = decoded.commands.length := by
    rw [List.length_zip, hlength, Nat.min_self]
  exact ⟨again, decodeAll_skip_eq_ok.mpr hagain, hlength, hall.length_eq.symm.trans hzip, hitems,
    hall⟩

end Command

/-- An object, the bare name of a save, a command with a null at its end, an empty row and the bare
name of a command with arguments. -/
def strayInstructions : List (Instruction Float) :=
  [.value (.object [("name", .text "save")]),
    .value (.text "save"),
    .value (.array [.text "fillRect", .int 0, .int 0, .int 1, .int 1, .null]),
    .value (.array []),
    .value (.text "rotate")]

theorem decodeAll_writtenBack_stray :
    ∃ decoded again, Command.decodeAll .skip strayInstructions = .ok decoded ∧
      Command.decodeAll .skip (decoded.commands.map Command.writtenBack) = .ok again ∧
      again.commands.length = 5 ∧ again.items = decoded.items ∧
      List.Forall₂ (fun slot command => WrittenBack slot.1 slot.2 command)
        (strayInstructions.zip decoded.commands) again.commands := by
  have hok : (Command.decodeAll .skip strayInstructions).isOk = true := by decide +kernel
  obtain ⟨decoded, hdecoded⟩ := isOk_iff.mp hok
  obtain ⟨again, hagain, hlength, hlength', hitems, hall⟩ := Command.decodeAll_writtenBack hdecoded
  exact ⟨decoded, again, hdecoded, hagain, hlength'.trans hlength, hitems, hall⟩

/-- **A refused instruction can come back as a command**: the bare name of a save is refused, and
what is written of it saves. -/
theorem decodeAll_save_writtenBack :
    ∃ (decoded again : Decoded Float) (reason : String),
      Command.decodeAll .skip [.value (.text "save")] = .ok decoded ∧
      decoded.commands = [.invalid [.text "save"] reason] ∧
      Command.decodeAll .skip (decoded.commands.map Command.writtenBack) = .ok again ∧
      again.commands = [.save] :=
  ⟨_, _, _, rfl, rfl, rfl, rfl⟩

end CanvasScript
