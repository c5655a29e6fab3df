import CanvasScript.Proofs.Command.Conform
import CanvasScript.Proofs.Command.RoundTrip

/-!
# The rule that an error tells

The rules of an instruction come in an order: its form, the form of its name, the name, the count of
its arguments, and then its slots from left to right. Several of them may be broken at once, and the
error that `decode_command` raises is about the first one.

* `Instruction.Keeps` says what a rule asks, whatever becomes of the other rules, and
  `Instruction.BreaksFirst` which one is broken first.
* `Instruction.report` is what an error has to tell about a rule: where, what was expected, and what
  was found.
* `Instruction.conforms_iff`: **an instruction conforms when it keeps every rule**.
* `Arguments.exists_of_readAll_error`: arguments are refused at the first slot that refuses its
  value.
* `Command.decode_first`: **commands are what conforms, and an error tells the first rule that is
  broken**.

Out of scope: the words of a message, which follow from the rule that it tells (`Fault.detail`).
-/

namespace CanvasScript

variable {α : Type}

/-! ## Rules and their order -/

/-- A rule of an instruction. -/
inductive Rule where
  /-- It is a row with items. -/
  | form
  /-- Its first item is a text that is not empty. -/
  | name
  /-- Its name is that of a kind. -/
  | known
  /-- It has no more arguments than its kind has slots. -/
  | count
  /-- A slot of its kind takes the value in its place. -/
  | slot (i : Nat)
  deriving DecidableEq, Repr

/-- The place of a rule in the order in which they are checked. -/
def Rule.rank : Rule → Nat
  | .form => 0
  | .name => 1
  | .known => 2
  | .count => 3
  | .slot i => 4 + i

/-- What an error tells: whether a name is unknown, the command and the field that it names, what
was expected there and what was found. -/
structure Report (α : Type) where
  isUnknownName : Bool
  command : Value α
  field : Option String
  expected : String
  received : Value α

/-- What a fault tells. -/
def Fault.report (fault : Fault α) : Report α :=
  ⟨fault.isUnknownName, fault.command, fault.field, fault.expected, fault.received⟩

namespace Instruction

/-- The first item of an instruction. -/
def head? (instruction : Instruction α) : Option (Value α) := instruction.items?.bind List.head?

/-- The items behind the first one. -/
def values (instruction : Instruction α) : List (Value α) := (instruction.items?.getD []).tail

/-- The kind that the first item names. -/
def kind? (instruction : Instruction α) : Option Kind :=
  match instruction.head? with
  | some (.text name) => Kind.ofName? name
  | _ => none

/-- The slots of the kind that an instruction names. -/
def slots (instruction : Instruction α) : List Slot := (instruction.kind?.map Kind.slots).getD []

/-- What an error tells about a rule that an instruction breaks. -/
def report (instruction : Instruction α) (rule : Rule) : Report α :=
  let head := instruction.head?.getD .null
  match rule with
  | .form => ⟨false, .null, "command", "non-empty [name, ...args] list", instruction.toValue⟩
  | .name => ⟨false, head, "command", "command name string", head⟩
  | .known => ⟨true, head, "command", "known command name", head⟩
  | .count =>
    ⟨false, head, none, "at most " ++ Decimal.integerText instruction.slots.length ++ " arguments",
      .int instruction.values.length⟩
  | .slot i =>
    ⟨false, head, instruction.slots[i]?.map Slot.name,
      (instruction.slots[i]?.map fun slot => slot.kind.expected).getD "",
      instruction.values[i]?.getD .null⟩

section

variable {instruction : Instruction α} {kind : Kind} {values : List (Value α)}

theorem head?_of_items {item : Value α} (h : instruction.items? = some (item :: values)) :
    instruction.head? = some item := by
  rw [head?, h]
  rfl

theorem values_of_items {item : Value α} (h : instruction.items? = some (item :: values)) :
    instruction.values = values := by
  rw [Instruction.values, h]
  rfl

theorem kind?_of_items {name : String} (h : instruction.items? = some (.text name :: values)) :
    instruction.kind? = Kind.ofName? name := by
  rw [kind?, head?_of_items h]

theorem slots_of_items (h : instruction.items? = some (.text kind.name :: values)) :
    instruction.slots = kind.slots := by
  rw [slots, kind?_of_items h, Kind.ofName?_name]
  rfl

/-- An instruction that names a kind is a row with that name. -/
theorem items_of_kind? (h : instruction.kind? = some kind) :
    instruction.items? = some (.text kind.name :: instruction.values) := by
  unfold kind? head? at h
  unfold Instruction.values
  cases hitems : instruction.items? with
  | none =>
    rw [hitems] at h
    cases h
  | some items =>
    rw [hitems] at h
    cases items with
    | nil => cases h
    | cons item values =>
      cases item with
      | text name =>
        obtain rfl := Kind.name_of_ofName? h
        rfl
      | _ => cases h

end

variable [Written α]

/-- What a rule asks of an instruction. -/
def Keeps (instruction : Instruction α) : Rule → Prop
  | .form => instruction.head?.isSome
  | .name => ∃ name, instruction.head? = some (.text name) ∧ name ≠ ""
  | .known => instruction.kind?.isSome
  | .count => instruction.values.length ≤ instruction.slots.length
  | .slot i => ∀ h : i < instruction.slots.length,
      instruction.slots[i].Takes instruction.values[i]?

/-- A rule is the first one that an instruction breaks. -/
structure BreaksFirst (instruction : Instruction α) (rule : Rule) : Prop where
  broken : ¬ instruction.Keeps rule
  earlier : ∀ other : Rule, other.rank < rule.rank → instruction.Keeps other

variable {instruction : Instruction α} {kind : Kind} {values : List (Value α)}

/-- An instruction of a kind keeps the rules about its form and its name. -/
theorem keeps_of_items (h : instruction.items? = some (.text kind.name :: values)) {rule : Rule}
    (hrank : rule.rank < Rule.count.rank) : instruction.Keeps rule := by
  cases rule with
  | form => rw [Keeps, head?_of_items h]; rfl
  | name => exact ⟨kind.name, head?_of_items h, kind.name_ne_empty⟩
  | known => rw [Keeps, kind?_of_items h, Kind.ofName?_name]; rfl
  | count | slot i => simp only [Rule.rank] at hrank; omega

theorem keeps_count (h : instruction.items? = some (.text kind.name :: values)) :
    instruction.Keeps .count ↔ values.length ≤ kind.slots.length := by
  rw [Keeps, slots_of_items h, values_of_items h]

theorem keeps_slot (h : instruction.items? = some (.text kind.name :: values)) (i : Nat) :
    instruction.Keeps (.slot i) ↔ ∀ h : i < kind.slots.length, kind.slots[i].Takes values[i]? := by
  simp only [Keeps, slots_of_items h, values_of_items h]

/-- **An instruction conforms when it keeps every rule.** -/
theorem conforms_iff : instruction.Conforms ↔ ∀ rule, instruction.Keeps rule := by
  constructor
  · rintro ⟨kind, values, hitems, hlength, htakes⟩ rule
    cases rule with
    | form | name | known => exact keeps_of_items hitems (by decide)
    | count => exact (keeps_count hitems).mpr hlength
    | slot i => exact (keeps_slot hitems i).mpr (htakes i)
  · intro h
    obtain ⟨kind, hkind⟩ := Option.isSome_iff_exists.mp (h .known)
    have hitems := items_of_kind? hkind
    exact ⟨kind, _, hitems, (keeps_count hitems).mp (h .count),
      fun i => (keeps_slot hitems i).mp (h (.slot i))⟩

/-! ### The first rule that is broken -/

theorem breaksFirst_form (h : instruction.head? = none) : instruction.BreaksFirst .form where
  broken hkeeps := by
    rw [Keeps, h] at hkeeps
    cases hkeeps
  earlier other hother := absurd hother (Nat.not_lt_zero _)

/-- A first item that is no text, or an empty one, is no name. -/
theorem breaksFirst_name {item : Value α} (h : instruction.items? = some (item :: values))
    (hitem : ∀ name, item = .text name → name = "") : instruction.BreaksFirst .name where
  broken := by
    rintro ⟨name, hname, hne⟩
    rw [head?_of_items h] at hname
    exact hne (hitem name (Option.some.inj hname))
  earlier other hother := by
    cases other with
    | form => rw [Keeps, head?_of_items h]; rfl
    | _ => simp only [Rule.rank] at hother; omega

theorem breaksFirst_known {name : String} (h : instruction.items? = some (.text name :: values))
    (hne : name ≠ "") (hname : Kind.ofName? name = none) : instruction.BreaksFirst .known where
  broken hkeeps := by
    rw [Keeps, kind?_of_items h, hname] at hkeeps
    cases hkeeps
  earlier other hother := by
    cases other with
    | form => rw [Keeps, head?_of_items h]; rfl
    | name => exact ⟨name, head?_of_items h, hne⟩
    | _ => simp only [Rule.rank] at hother; omega

theorem breaksFirst_count (h : instruction.items? = some (.text kind.name :: values))
    (hlength : kind.slots.length < values.length) : instruction.BreaksFirst .count where
  broken hkeeps := Nat.not_le.mpr hlength ((keeps_count h).mp hkeeps)
  earlier _ := keeps_of_items h

theorem breaksFirst_slot (h : instruction.items? = some (.text kind.name :: values))
    (hlength : values.length ≤ kind.slots.length) {i : Nat} (hi : i < kind.slots.length)
    (hbroken : ¬ kind.slots[i].Takes values[i]?)
    (hbefore : ∀ (j : Nat) (hj : j < i), kind.slots[j].Takes values[j]?) :
    instruction.BreaksFirst (.slot i) where
  broken hkeeps := hbroken ((keeps_slot h i).mp hkeeps hi)
  earlier other hother := by
    cases other with
    | form | name | known => exact keeps_of_items h (by decide)
    | count => exact (keeps_count h).mpr hlength
    | slot j =>
      have hj : j < i := by simp only [Rule.rank] at hother; omega
      exact (keeps_slot h j).mpr fun _ => hbefore j hj

end Instruction

section

variable [Written α]

/-! ## Arguments -/

namespace Arguments

theorem report_of_fit {kind : Kind} {slot : Slot} {v : Value α} {fault : Fault α}
    (h : fit kind slot v = .error (.fault fault)) :
    fault.report = ⟨false, .text kind.name, slot.name, slot.kind.expected, v⟩ := by
  unfold fit at h
  split at h
  · cases h
  · cases h
    rfl
  · cases h

/-- A slot that refuses what stands in its place tells so. -/
theorem report_of_read {kind : Kind} {slot : Slot} {place : Option (Value α)} {fault : Fault α}
    (h : read kind slot place = .error (.fault fault)) :
    fault.report =
      ⟨false, .text kind.name, slot.name, slot.kind.expected, place.getD .null⟩ := by
  obtain ⟨name, slotKind, isRequired⟩ := slot
  cases isRequired with
  | true =>
    cases place with
    | none =>
      cases h
      rfl
    | some v => exact report_of_fit h
  | false =>
    simp only [read] at h
    split at h
    · cases h
    · cases h
    · exact report_of_fit (map_eq_error.mp h)

/-- **Arguments are refused at the first slot that refuses its value.** -/
theorem exists_of_readAll_error {kind : Kind} {slots : List Slot} {values : List (Value α)}
    {refusal : Refusal α} (h : readAll kind slots values = .error refusal) :
    ∃ (i : Nat) (hi : i < slots.length), read kind slots[i] values[i]? = .error refusal ∧
      ∀ (j : Nat) (hj : j < i), slots[j].Takes values[j]? := by
  induction slots generalizing values with
  | nil => cases h
  | cons slot rest ih =>
    rcases bind_eq_error.mp h with hread | ⟨content, hcontent, h⟩
    · rw [List.head?_eq_getElem?] at hread
      exact ⟨0, Nat.zero_lt_succ _, hread, fun j hj => absurd hj (Nat.not_lt_zero j)⟩
    · rcases bind_eq_error.mp h with hmore | ⟨more, -, h⟩
      · obtain ⟨i, hi, hread, hbefore⟩ := ih hmore
        rw [List.getElem?_tail] at hread
        refine ⟨i + 1, Nat.succ_lt_succ hi, hread, fun j hj => ?_⟩
        cases j with
        | zero =>
          rw [List.head?_eq_getElem?] at hcontent
          exact exists_read_iff.mp ⟨content, hcontent⟩
        | succ j =>
          have htakes := hbefore j (Nat.lt_of_succ_lt_succ hj)
          rwa [List.getElem?_tail] at htakes
      · cases h

end Arguments

/-! ## Instructions -/

namespace Command

variable {instruction : Instruction α}

/-- An argument that is refused breaks the rule of its slot first. -/
theorem exists_slot_of_readAll {kind : Kind} {values : List (Value α)} {refusal : Refusal α}
    (hitems : instruction.items? = some (.text kind.name :: values))
    (hlength : values.length ≤ kind.slots.length)
    (h : Arguments.readAll kind kind.slots values = .error refusal) :
    ∃ (i : Nat) (hi : i < kind.slots.length), instruction.BreaksFirst (.slot i) ∧
      Arguments.read kind kind.slots[i] values[i]? = .error refusal := by
  obtain ⟨i, hi, hread, hbefore⟩ := Arguments.exists_of_readAll_error h
  refine ⟨i, hi, Instruction.breaksFirst_slot hitems hlength hi (fun htakes => ?_) hbefore, hread⟩
  obtain ⟨content, hcontent⟩ := Arguments.exists_read_iff.mpr htakes
  rw [hread] at hcontent
  cases hcontent

/-- The arguments of a kind are refused for their count, or else for the first one of them that does
not fit. -/
theorem exists_rule_of_ofArguments {kind : Kind} {values : List (Value α)} {fault : Fault α}
    (hitems : instruction.items? = some (.text kind.name :: values))
    (h : ofArguments kind values = .error (.fault fault)) :
    ∃ rule, instruction.BreaksFirst rule ∧ fault.report = instruction.report rule := by
  have hhead := Instruction.head?_of_items hitems
  have hslots := Instruction.slots_of_items hitems
  have hvalues := Instruction.values_of_items hitems
  unfold ofArguments at h
  split at h
  · rename_i hlength
    cases h
    refine ⟨.count, Instruction.breaksFirst_count hitems hlength, ?_⟩
    simp only [Instruction.report, hhead, hslots, hvalues]
    rfl
  · rename_i hlength
    obtain ⟨i, hi, hfirst, hread⟩ :=
      exists_slot_of_readAll hitems (Nat.not_lt.mp hlength) (map_eq_error.mp h)
    refine ⟨.slot i, hfirst, (Arguments.report_of_read hread).trans ?_⟩
    simp only [Instruction.report, hhead, hslots, hvalues, List.getElem?_eq_getElem hi]
    rfl

/-- **An error tells the first rule that is broken.** -/
theorem exists_rule_of_fault {fault : Fault α}
    (h : decode instruction = .error (.fault fault)) :
    ∃ rule, instruction.BreaksFirst rule ∧ fault.report = instruction.report rule := by
  unfold decode at h
  split at h
  · rename_i hitems
    cases h
    exact ⟨.form, Instruction.breaksFirst_form (by rw [Instruction.head?, hitems]; rfl), rfl⟩
  · rename_i hitems
    cases h
    exact ⟨.form, Instruction.breaksFirst_form (by rw [Instruction.head?, hitems]; rfl), rfl⟩
  · rename_i name values hitems
    split at h
    · rename_i hempty
      cases h
      refine ⟨.name, Instruction.breaksFirst_name hitems fun other hother => ?_, ?_⟩
      · cases hother
        exact hempty
      · simp only [Instruction.report, Instruction.head?_of_items hitems]
        rfl
    · rename_i hne
      split at h
      · rename_i kind hkind
        obtain rfl := Kind.name_of_ofName? hkind
        exact exists_rule_of_ofArguments hitems h
      · rename_i hname
        cases h
        refine ⟨.known, Instruction.breaksFirst_known hitems hne hname, ?_⟩
        simp only [Instruction.report, Instruction.head?_of_items hitems]
        rfl
  · rename_i item values hnot hitems
    cases h
    refine ⟨.name, Instruction.breaksFirst_name hitems fun name hname => ?_, ?_⟩
    · exact absurd hname (hnot name)
    · simp only [Instruction.report, Instruction.head?_of_items hitems]
      rfl

/-- Where neither a command nor an error about a rule comes out, the first rule that is broken is
that of a slot with an integer beyond the scalars. -/
theorem exists_slot_of_arithmetic {fault : ArithmeticFault}
    (h : decode instruction = .error (.arithmetic fault)) :
    ∃ i n, instruction.BreaksFirst (.slot i) ∧
      instruction.values[i]? = some (.number (.int n)) ∧ Scalar.holds (α := α) n = false := by
  by_cases hkind : ∃ kind values, instruction.items? = some (.text (Kind.name kind) :: values)
  · obtain ⟨kind, values, hitems⟩ := hkind
    rw [decode_of_items hitems] at h
    unfold ofArguments at h
    split at h
    · cases h
    · rename_i hlength
      obtain ⟨i, hi, hfirst, hread⟩ :=
        exists_slot_of_readAll hitems (Nat.not_lt.mp hlength) (map_eq_error.mp h)
      obtain ⟨n, hplace, hholds⟩ := Arguments.exists_integer_of_read hread
      exact ⟨i, n, hfirst, (Instruction.values_of_items hitems).symm ▸ hplace, hholds⟩
  · obtain ⟨fault', hfault⟩ := exists_fault_of_nameless fun kind values hitems =>
      hkind ⟨kind, values, hitems⟩
    rw [hfault] at h
    cases h

/-- A command has the kind that its instruction names, and the values behind the name in order,
null where an optional one is left out. -/
theorem fields_of_decode {command : Command α} (h : decode instruction = .ok command) :
    ∃ kind, instruction.kind? = some kind ∧ command.kind? = some kind ∧
      command.fields = instruction.values ++
        List.replicate (kind.slots.length - instruction.values.length) .null := by
  obtain ⟨kind, values, arguments, hitems, hlength, hread, rfl⟩ := decode_eq_ok.mp h
  have hkind := (Instruction.kind?_of_items hitems).trans (Kind.ofName?_name kind)
  refine ⟨kind, hkind, kind?_command kind arguments, ?_⟩
  obtain ⟨count, hcount⟩ := Arguments.values_of_readAll hread hlength
  have hall := congrArg List.length hcount
  rw [Arguments.length_values, List.length_append, List.length_replicate] at hall
  rw [Kind.fields_command, hcount, Instruction.values_of_items hitems,
    show kind.slots.length - values.length = count by omega]

/-- **Commands are what conforms, and an error tells the first rule that is broken.** An instruction
conforms when it keeps every rule, and its command has the kind of its name and the arguments in the
order of the slots. Any other one is refused for the first rule that it breaks, unless this is the
rule of a slot with an integer beyond the scalars. -/
theorem decode_first (instruction : Instruction α) :
    ((∃ command, decode instruction = .ok command) ↔ instruction.Conforms) ∧
    (instruction.Conforms ↔ ∀ rule, instruction.Keeps rule) ∧
    (∀ command, decode instruction = .ok command →
      ∃ kind, instruction.kind? = some kind ∧ command.kind? = some kind ∧
        command.fields = instruction.values ++
          List.replicate (kind.slots.length - instruction.values.length) .null) ∧
    (∀ fault, decode instruction = .error (.fault fault) →
      ∃ rule, instruction.BreaksFirst rule ∧ fault.report = instruction.report rule) ∧
    (∀ fault, decode instruction = .error (.arithmetic fault) →
      ∃ i n, instruction.BreaksFirst (.slot i) ∧
        instruction.values[i]? = some (.number (.int n)) ∧ Scalar.holds (α := α) n = false) :=
  ⟨exists_decode_iff, Instruction.conforms_iff, fun _ => fields_of_decode,
    fun _ => exists_rule_of_fault, fun _ => exists_slot_of_arithmetic⟩

end Command

end

/-- A rectangle with a flag, a null and a text for its numbers, of which the last one is missing. -/
def faultyRect : Instruction Float :=
  .value (.array [.text "strokeRect", .flag true, .null, .text "4"])

theorem decode_first_faultyRect :
    ¬ faultyRect.Conforms ∧ ∃ rule, faultyRect.BreaksFirst rule ∧
      faultyRect.report rule =
        ⟨false, .text "strokeRect", "x", "finite number", .flag true⟩ := by
  have hdecode : Command.decode faultyRect =
      .error (.fault (.unfit (.rect .stroke) (Kind.number "x") .notNumber (.flag true))) := rfl
  obtain ⟨hconforms, -, -, hfault, -⟩ := Command.decode_first faultyRect
  obtain ⟨rule, hfirst, hreport⟩ := hfault _ hdecode
  refine ⟨fun h => ?_, rule, hfirst, hreport.symm⟩
  obtain ⟨command, hcommand⟩ := hconforms.mpr h
  rw [hdecode] at hcommand
  cases hcommand

end CanvasScript
