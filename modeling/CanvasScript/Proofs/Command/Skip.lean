import CanvasScript.Proofs.Command.Conform
import CanvasScript.Scalar.Binary64
import Mathlib.Algebra.Group.Int.Defs
import Mathlib.Data.List.Forall2

/-!
# Skipping what is refused

Under the policy `skip` a program is decoded (`decode_command_list`) whatever its instructions are,
as long as their integers lie within the scalars. Every instruction keeps its place, and the places
that are refused are told in order.

* `places` lists what is told of some of the items of a list, each with its place, in order.
* `refusals` are the places that are refused, each with the rule that its instruction breaks.
* `exists_slots`: **every instruction has a slot** (`HasSlot`), unless one ends the program
  (`overflow?`).
* `decodeAll_skip`: **the policy `skip` refuses no program** of such integers.
* `decodeAll_skip_tooLarge`: an integer beyond the scalars is neither taken nor refused, so it ends
  the program.
-/

namespace CanvasScript

/-! ## Places -/

section

variable {β γ : Type} {tell : β → Option γ} {index : Nat}

/-- What is told of the items from a place on, each with its place. -/
def places (tell : β → Option γ) (index : Nat) (items : List β) : List (Nat × γ) :=
  (items.zipIdx index).filterMap fun (item, k) => (tell item).map (k, ·)

theorem places_cons (item : β) (rest : List β) :
    places tell index (item :: rest) =
      ((tell item).map (index, ·)).toList ++ places tell (index + 1) rest := by
  unfold places
  cases h : tell item <;> simp [h]

theorem mem_places {items : List β} {k : Nat} {c : γ} :
    (k, c) ∈ places tell index items ↔
      ∃ i item, items[i]? = some item ∧ k = index + i ∧ tell item = some c := by
  unfold places
  rw [List.mem_filterMap]
  constructor
  · rintro ⟨⟨item, place⟩, hmem, h⟩
    obtain ⟨c', hc, h⟩ := Option.map_eq_some_iff.mp h
    cases h
    obtain ⟨hle, hget⟩ := List.mem_zipIdx_iff_le_and_getElem?_sub.mp hmem
    exact ⟨k - index, item, hget, by omega, hc⟩
  · rintro ⟨i, item, hget, rfl, hc⟩
    refine ⟨(item, index + i), List.mem_zipIdx_iff_le_and_getElem?_sub.mpr ⟨by omega, ?_⟩, ?_⟩
    · rwa [Nat.add_sub_cancel_left]
    · exact Option.map_eq_some_iff.mpr ⟨c, hc, rfl⟩

theorem places_eq_nil_iff {items : List β} :
    places tell index items = [] ↔ ∀ item ∈ items, tell item = none := by
  induction items generalizing index with
  | nil => simp [places]
  | cons item rest ih =>
    rw [places_cons, List.append_eq_nil_iff, ih, List.forall_mem_cons, Option.toList_eq_nil_iff,
      Option.map_eq_none_iff]

/-- **The places come in order.** -/
theorem pairwise_places (tell : β → Option γ) (index : Nat) (items : List β) :
    (places tell index items).Pairwise fun p q => p.1 < q.1 := by
  have hplaces : (items.zipIdx index).Pairwise fun p q => p.2 < q.2 := by
    rw [← List.pairwise_map, List.zipIdx_map_snd]
    exact List.pairwise_lt_range'
  refine hplaces.filterMap _ fun p q hpq told hp told' hq => ?_
  obtain ⟨c, -, rfl⟩ := Option.map_eq_some_iff.mp hp
  obtain ⟨c', -, rfl⟩ := Option.map_eq_some_iff.mp hq
  exact hpq

end

variable {α : Type} [Written α]

namespace Instruction

/-- The rule that an instruction breaks, if it is refused. -/
def fault? (instruction : Instruction α) : Option (Fault α) :=
  match Command.decode instruction with
  | .error (.fault fault) => some fault
  | _ => none

theorem fault?_eq_some {instruction : Instruction α} {fault : Fault α} :
    instruction.fault? = some fault ↔ Command.decode instruction = .error (.fault fault) := by
  unfold fault?
  split
  · rename_i fault' hdecode
    rw [hdecode]
    constructor
    · intro h
      cases h
      rfl
    · intro h
      cases h
      rfl
  · rename_i hnone
    constructor
    · intro h
      cases h
    · intro h
      exact absurd h (hnone fault)

/-- The fault that ends a program at an instruction, if one of its numbers is beyond the scalars. -/
def overflow? (instruction : Instruction α) : Option ArithmeticFault :=
  match Command.decode instruction with
  | .error (.arithmetic fault) => some fault
  | _ => none

theorem overflow?_eq_some {instruction : Instruction α} {fault : ArithmeticFault} :
    instruction.overflow? = some fault ↔
      Command.decode instruction = .error (.arithmetic fault) := by
  unfold overflow?
  split
  · rename_i fault' hdecode
    rw [hdecode]
    exact ⟨fun h => (by cases h; rfl), fun h => (by cases h; rfl)⟩
  · rename_i hnone
    exact ⟨fun h => (by cases h), fun h => absurd h (hnone fault)⟩

/-- The slot of an instruction: its command, or an invalid one with its items and the rule that it
breaks. -/
def HasSlot (instruction : Instruction α) (command : Command α) : Prop :=
  Command.decode instruction = .ok command ∨
    ∃ fault, Command.decode instruction = .error (.fault fault) ∧
      command = .invalid instruction.items fault.detail

end Instruction

namespace Command

/-- The places that are refused from a place on, each with the rule that is broken there. -/
def refusals (index : Nat) (instructions : List (Instruction α)) : List (Nat × Fault α) :=
  places Instruction.fault? index instructions

/-- The errors of refused places. -/
def errorsOf (refused : List (Nat × Fault α)) : List (CommandError α) :=
  refused.map fun (k, fault) => ⟨some (k : Int), fault⟩

omit [Written α] in
theorem errorsOf_places_cons {β : Type} (tell : β → Option (Fault α)) (index : Nat) (item : β)
    (rest : List β) :
    errorsOf (places tell index (item :: rest)) =
      ((tell item).map fun fault => ⟨some (index : Int), fault⟩).toList ++
        errorsOf (places tell (index + 1) rest) := by
  rw [places_cons]
  unfold errorsOf
  cases tell item <;> rfl

theorem errorsOf_refusals_cons (index : Nat) (instruction : Instruction α)
    (rest : List (Instruction α)) :
    errorsOf (refusals index (instruction :: rest)) =
      (instruction.fault?.map fun fault => ⟨some (index : Int), fault⟩).toList ++
        errorsOf (refusals (index + 1) rest) :=
  errorsOf_places_cons Instruction.fault? index instruction rest

theorem mem_refusals {instructions : List (Instruction α)} {k : Nat} {fault : Fault α} :
    (k, fault) ∈ refusals 0 instructions ↔ ∃ instruction, instructions[k]? = some instruction ∧
      decode instruction = .error (.fault fault) := by
  refine mem_places.trans ?_
  simp only [Nat.zero_add, Instruction.fault?_eq_some]
  exact ⟨fun ⟨i, instruction, hget, hk, hfault⟩ => ⟨instruction, hk ▸ hget, hfault⟩,
    fun ⟨instruction, hget, hfault⟩ => ⟨k, instruction, hget, rfl, hfault⟩⟩

/-- **The refused places are told in order.** -/
theorem pairwise_refusals (index : Nat) (instructions : List (Instruction α)) :
    (refusals index instructions).Pairwise fun p q => p.1 < q.1 :=
  pairwise_places Instruction.fault? index instructions

theorem isInvalid_of_decode {instruction : Instruction α} {command : Command α}
    (h : decode instruction = .ok command) : command.isInvalid = false := by
  obtain ⟨kind, values, arguments, -, -, -, rfl⟩ := decode_eq_ok.mp h
  cases kind <;> rfl

/-- The slot of an instruction is invalid when the instruction does not conform. -/
theorem isInvalid_iff_of_hasSlot {instruction : Instruction α} {command : Command α}
    (h : instruction.HasSlot command) : command.isInvalid = true ↔ ¬ instruction.Conforms := by
  rcases h with hdecode | ⟨fault, hdecode, rfl⟩
  · have hconforms := exists_decode_iff.mp ⟨command, hdecode⟩
    simp [isInvalid_of_decode hdecode, hconforms]
  · refine ⟨fun _ hconforms => ?_, fun _ => rfl⟩
    obtain ⟨command, hcommand⟩ := exists_decode_iff.mpr hconforms
    rw [hdecode] at hcommand
    cases hcommand

theorem overflow?_eq_none {instruction : Instruction α} (h : instruction.IntegersHold) :
    instruction.overflow? = none := by
  cases hoverflow : instruction.overflow? with
  | none => rfl
  | some fault =>
    have hdecode := Instruction.overflow?_eq_some.mp hoverflow
    obtain ⟨n, hmem, hholds⟩ := exists_integer_of_decode hdecode
    rw [h n hmem] at hholds
    cases hholds

/-- **An instruction of numbers within the scalars has a slot.** The rule that it breaks is told
with its place. -/
theorem exists_decodeSlot {instruction : Instruction α} (h : instruction.overflow? = none)
    (index : Nat) : ∃ command,
      decodeSlot index instruction =
        .ok (command, instruction.fault?.map fun fault => ⟨some (index : Int), fault⟩) ∧
      instruction.HasSlot command := by
  unfold decodeSlot Instruction.fault?
  cases hdecode : decode instruction with
  | ok command => exact ⟨command, rfl, .inl hdecode⟩
  | error refusal =>
    cases refusal with
    | fault fault => exact ⟨_, rfl, .inr ⟨fault, hdecode, rfl⟩⟩
    | arithmetic fault =>
      rw [Instruction.overflow?_eq_some.mpr hdecode] at h
      cases h

/-- The slots of a program, and the errors of its refused places. -/
theorem exists_slots {instructions : List (Instruction α)}
    (h : ∀ instruction ∈ instructions, instruction.overflow? = none) (index : Nat) :
    ∃ commands,
      decodeFrom index instructions = .ok ⟨commands, errorsOf (refusals index instructions)⟩ ∧
      List.Forall₂ Instruction.HasSlot instructions commands := by
  induction instructions generalizing index with
  | nil => exact ⟨[], rfl, .nil⟩
  | cons instruction rest ih =>
    obtain ⟨hfirst, hrest⟩ := List.forall_mem_cons.mp h
    obtain ⟨command, hslot, hhas⟩ := exists_decodeSlot hfirst index
    obtain ⟨commands, hmore, hall⟩ := ih hrest (index + 1)
    refine ⟨command :: commands, ?_, .cons hhas hall⟩
    refine bind_eq_ok.mpr ⟨_, hslot, bind_eq_ok.mpr ⟨_, hmore, ?_⟩⟩
    rw [errorsOf_refusals_cons]
    rfl

/-- The slots of a program whose integers lie within the scalars: those of the instructions that do
not conform are invalid. -/
theorem exists_decodeFrom {instructions : List (Instruction α)}
    (h : ∀ instruction ∈ instructions, instruction.IntegersHold) (index : Nat) : ∃ commands,
      decodeFrom index instructions = .ok ⟨commands, errorsOf (refusals index instructions)⟩ ∧
      List.Forall₂ (fun instruction command => command.isInvalid = true ↔ ¬ instruction.Conforms)
        instructions commands := by
  obtain ⟨commands, hdecode, hall⟩ :=
    exists_slots (fun i hi => overflow?_eq_none (h i hi)) index
  exact ⟨commands, hdecode, hall.imp fun _ _ => isInvalid_iff_of_hasSlot⟩

/-- The refused places are those of the instructions that do not conform. -/
theorem exists_mem_refusals_iff {instructions : List (Instruction α)}
    (h : ∀ instruction ∈ instructions, instruction.IntegersHold) {k : Nat} :
    (∃ fault, (k, fault) ∈ refusals 0 instructions) ↔
      ∃ instruction, instructions[k]? = some instruction ∧ ¬ instruction.Conforms := by
  constructor
  · rintro ⟨fault, hmem⟩
    obtain ⟨instruction, hget, hfault⟩ := mem_refusals.mp hmem
    refine ⟨instruction, hget, fun hconforms => ?_⟩
    obtain ⟨command, hcommand⟩ := exists_decode_iff.mpr hconforms
    rw [hfault] at hcommand
    cases hcommand
  · rintro ⟨instruction, hget, hnot⟩
    cases hdecode : decode instruction with
    | ok command => exact absurd (exists_decode_iff.mp ⟨command, hdecode⟩) hnot
    | error refusal =>
      cases refusal with
      | fault fault => exact ⟨fault, mem_refusals.mpr ⟨instruction, hget, hdecode⟩⟩
      | arithmetic fault =>
        obtain ⟨n, hmem, hholds⟩ := exists_integer_of_decode hdecode
        rw [h instruction (List.mem_of_getElem? hget) n hmem] at hholds
        cases hholds

/-- **The policy `skip` refuses no program** whose integers lie within the scalars. Every
instruction has a slot, which is invalid when the instruction does not conform. The report has an
error and a warning for every such place, in their order, with the rule that is broken there. -/
theorem decodeAll_skip {instructions : List (Instruction α)}
    (h : ∀ instruction ∈ instructions, instruction.IntegersHold) :
    ∃ (decoded : Decoded α) (refused : List (Nat × Fault α)),
      decodeAll .skip instructions = .ok decoded ∧
      List.Forall₂ (fun (instruction : Instruction α) (command : Command α) =>
        command.isInvalid = true ↔ ¬ instruction.Conforms) instructions decoded.commands ∧
      (∀ k, (∃ fault, (k, fault) ∈ refused) ↔
        ∃ instruction, instructions[k]? = some instruction ∧ ¬ instruction.Conforms) ∧
      (∀ k fault, (k, fault) ∈ refused ↔
        ∃ instruction, instructions[k]? = some instruction ∧
          decode instruction = .error (.fault fault)) ∧
      refused.Pairwise (fun p q => p.1 < q.1) ∧
      decoded.errors = refused.map (fun (k, fault) => ⟨some (k : Int), fault⟩) ∧
      decoded.warnings = refused.map (fun (k, fault) =>
        "skipping instruction " ++ Decimal.integerText k ++ ": " ++ fault.detail) := by
  obtain ⟨commands, hfrom, hall⟩ := exists_decodeFrom h 0
  refine ⟨⟨commands, errorsOf (refusals 0 instructions)⟩, refusals 0 instructions, ?_, hall,
    fun k => exists_mem_refusals_iff h, fun k fault => mem_refusals,
    pairwise_refusals 0 instructions, rfl, ?_⟩
  · unfold decodeAll
    rw [hfrom]
    exact if_neg fun hstrict => nomatch hstrict.1
  · unfold Decoded.warnings errorsOf
    rw [List.map_map]
    rfl

end Command

/-- A value that is no row, a row with an undefined scalar, one with an array for a number, and one
that conforms. -/
def oddInstructions : List (Instruction Float) :=
  [.value (.object [("name", .text "save")]),
    .row [.text "rotate", .number (.real (0.0 / 0.0))],
    .row [.text "translate", .array [.number (.int 5)], .null],
    .row [.text "save"]]

theorem decodeAll_skip_odd :
    ∃ decoded, Command.decodeAll .skip oddInstructions = .ok decoded ∧
      decoded.commands.length = 4 ∧ decoded.errors.length = decoded.warnings.length := by
  have hhold : ∀ instruction ∈ oddInstructions, instruction.IntegersHold := by
    have hfive : Scalar.holds (α := Float) 5 = true := by decide +kernel
    simpa [oddInstructions, Instruction.IntegersHold, Instruction.toValue] using hfive
  obtain ⟨decoded, refused, hdecoded, hall, -, -, -, herrors, hwarnings⟩ :=
    Command.decodeAll_skip hhold
  refine ⟨decoded, hdecoded, hall.length_eq.symm, ?_⟩
  rw [herrors, hwarnings, List.length_map, List.length_map]

/-- An angle beyond the scalars is neither taken nor refused. -/
theorem Command.decode_rotate_tooLarge {n : Int} (h : Scalar.holds (α := α) n = false) :
    decode (α := α) (.row [.text "rotate", .number (.int n)]) =
      .error (.arithmetic .tooLarge) := by
  have hcontent : SlotKind.number.content? (α := α) (.number (.int n)) = .error .tooLarge :=
    bind_eq_error.mpr (.inl (if_neg (Bool.eq_false_iff.mp h)))
  have hfit : Arguments.fit (α := α) .rotate (Kind.number "angle") (.number (.int n)) =
      .error (.arithmetic .tooLarge) := by
    unfold Arguments.fit Kind.number
    rw [hcontent]
  have hitems : (Instruction.row [.text "rotate", .number (.int n)] : Instruction α).items? =
      some (.text Kind.rotate.name :: [.number (.int n)]) := rfl
  rw [decode_of_items hitems]
  exact map_eq_error.mpr (bind_eq_error.mpr (.inl hfit))

/-- An integer beyond the scalars ends the program: no instruction keeps its slot. -/
theorem decodeAll_skip_tooLarge :
    Command.decodeAll (α := Float) .skip
        [.row [.text "save"], .row [.text "rotate", .number (.int (10 ^ 400))]] =
      .error (.arithmetic .tooLarge) := by
  have hdecode := Command.decode_rotate_tooLarge (α := Float) (n := 10 ^ 400) (by decide +kernel)
  simp only [Command.decodeAll, Command.decodeFrom, Command.decodeSlot, hdecode]
  rfl

end CanvasScript
