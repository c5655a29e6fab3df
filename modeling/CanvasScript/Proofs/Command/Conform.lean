import CanvasScript.Proofs.Command.Decode

/-!
# Instructions that keep to their schema

An instruction conforms to `COMMAND_SCHEMAS` when it is a row with the name of a kind, and each slot
of that kind takes the value in its place. An optional slot takes nothing or a null as well.

* `exists_readAll_iff`: **a row is read when every slot takes the value in its place**.
* `exists_decode_iff`: **an instruction has a command exactly when it conforms**.
* `exists_integer_of_decode`: **the rules say all there is**, but for an integer beyond the scalars
  among the values of the instruction.
-/

namespace CanvasScript

variable {α : Type}

/-- An integer stands somewhere in a value. -/
inductive Value.HasInteger (n : Int) : Value α → Prop where
  | here : HasInteger n (.number (.int n))
  | item {items : List (Value α)} {v : Value α} : v ∈ items → HasInteger n v →
    HasInteger n (.array items)
  | field {fields : Fields α} {name : String} {v : Value α} : (name, v) ∈ fields →
    HasInteger n v → HasInteger n (.object fields)

namespace Value

variable {n : Int}

@[simp] theorem not_hasInteger_null : ¬ HasInteger n (.null : Value α) := nofun

@[simp] theorem not_hasInteger_flag (b : Bool) : ¬ HasInteger n (.flag b : Value α) := nofun

@[simp] theorem not_hasInteger_text (s : String) : ¬ HasInteger n (.text s : Value α) := nofun

@[simp] theorem not_hasInteger_real (x : α) : ¬ HasInteger n (.number (.real x)) := nofun

@[simp] theorem hasInteger_int {m : Int} : HasInteger n (.number (.int m) : Value α) ↔ n = m := by
  constructor
  · rintro ⟨⟩
    rfl
  · rintro rfl
    exact .here

@[simp] theorem hasInteger_array {items : List (Value α)} :
    HasInteger n (.array items) ↔ ∃ v ∈ items, HasInteger n v := by
  constructor
  · rintro (_ | ⟨hmem, hv⟩)
    exact ⟨_, hmem, hv⟩
  · rintro ⟨v, hmem, hv⟩
    exact .item hmem hv

@[simp] theorem hasInteger_object {fields : Fields α} :
    HasInteger n (.object fields) ↔ ∃ name v, (name, v) ∈ fields ∧ HasInteger n v := by
  constructor
  · rintro (_ | _ | ⟨hmem, hv⟩)
    exact ⟨_, _, hmem, hv⟩
  · rintro ⟨name, v, hmem, hv⟩
    exact .field hmem hv

end Value

section

variable [Written α]

/-- A value is what a kind of slot takes: a finite number, a style or a flag. -/
def SlotKind.Takes : SlotKind → Value α → Prop
  | .number, v => ∃ n, v = .number n ∧ n.isFinite = .ok true
  | .color, v => ∃ style, v = .text style ∧ Rgba.isStyle style = true
  | .flag, v => ∃ b, v = .flag b

/-- What stands in the place of a slot, if anything does, is what it takes. -/
def Slot.Takes (slot : Slot) (place : Option (Value α)) : Prop :=
  (slot.isRequired = false ∧ (place = none ∨ place = some .null)) ∨
    ∃ v, place = some v ∧ slot.kind.Takes v

/-- An instruction keeps to the schema of its kind. -/
def Instruction.Conforms (instruction : Instruction α) : Prop :=
  ∃ kind values, instruction.items? = some (.text (Kind.name kind) :: values) ∧
    values.length ≤ kind.slots.length ∧
    ∀ (i : Nat) (h : i < kind.slots.length), kind.slots[i].Takes values[i]?

/-- The integers of an instruction, however deep, lie within the scalars. -/
def Instruction.IntegersHold (instruction : Instruction α) : Prop :=
  ∀ n, instruction.toValue.HasInteger n → Scalar.holds (α := α) n = true

namespace Arguments

theorem exists_content?_iff {kind : SlotKind} {v : Value α} :
    (∃ content, kind.content? v = .ok (.ok content)) ↔ kind.Takes v := by
  constructor
  · rintro ⟨content, h⟩
    unfold SlotKind.content? at h
    split at h
    · obtain ⟨finite, hfinite, h⟩ := bind_eq_ok.mp h
      cases finite with
      | false => cases h
      | true => exact ⟨_, rfl, hfinite⟩
    · cases h
    · split at h
      · rename_i hstyle
        exact ⟨_, rfl, hstyle⟩
      · cases h
    · cases h
    · exact ⟨_, rfl⟩
    · cases h
  · intro h
    cases kind with
    | number =>
      obtain ⟨n, rfl, hfinite⟩ := h
      exact ⟨n, bind_eq_ok.mpr ⟨true, hfinite, rfl⟩⟩
    | color =>
      obtain ⟨style, rfl, hstyle⟩ := h
      exact ⟨style, congrArg Except.ok (if_pos hstyle)⟩
    | flag =>
      obtain ⟨b, rfl⟩ := h
      exact ⟨b, rfl⟩

theorem exists_fit_iff (kind : Kind) (slot : Slot) {v : Value α} :
    (∃ content, fit kind slot v = .ok content) ↔ slot.kind.Takes v := by
  rw [← exists_content?_iff]
  constructor
  · rintro ⟨content, h⟩
    unfold fit at h
    split at h
    · rename_i hcontent
      exact ⟨_, hcontent⟩
    · cases h
    · cases h
  · rintro ⟨content, h⟩
    refine ⟨content, ?_⟩
    unfold fit
    rw [h]

/-- A null is nothing that a slot takes by its kind. -/
theorem not_takes_null (kind : SlotKind) : ¬ kind.Takes (.null : Value α) := by
  intro h
  cases kind with
  | number =>
    obtain ⟨n, hn, -⟩ := h
    cases hn
  | color =>
    obtain ⟨style, hstyle, -⟩ := h
    cases hstyle
  | flag =>
    obtain ⟨b, hb⟩ := h
    cases hb

theorem exists_read_iff {kind : Kind} {slot : Slot} {place : Option (Value α)} :
    (∃ content, read kind slot place = .ok content) ↔ slot.Takes place := by
  obtain ⟨name, slotKind, isRequired⟩ := slot
  cases isRequired with
  | true =>
    cases place with
    | none =>
      constructor
      · rintro ⟨content, h⟩
        cases h
      · rintro (⟨h, -⟩ | ⟨v, h, -⟩) <;> cases h
    | some v =>
      constructor
      · intro h
        exact .inr ⟨v, rfl, (exists_fit_iff kind ⟨name, slotKind, true⟩).mp h⟩
      · rintro (⟨h, -⟩ | ⟨w, h, htakes⟩)
        · cases h
        · cases h
          exact (exists_fit_iff kind ⟨name, slotKind, true⟩).mpr htakes
  | false =>
    constructor
    · rintro ⟨content, h⟩
      simp only [read] at h
      split at h
      · exact .inl ⟨rfl, .inl rfl⟩
      · exact .inl ⟨rfl, .inr rfl⟩
      · obtain ⟨content', hfit, -⟩ := map_eq_ok.mp h
        exact .inr ⟨_, rfl, (exists_fit_iff kind ⟨name, slotKind, false⟩).mp ⟨content', hfit⟩⟩
    · rintro (⟨-, rfl | rfl⟩ | ⟨v, rfl, htakes⟩)
      · exact ⟨none, rfl⟩
      · exact ⟨none, rfl⟩
      · obtain ⟨content, hfit⟩ := (exists_fit_iff kind ⟨name, slotKind, false⟩).mpr htakes
        cases v with
        | null => exact absurd htakes (not_takes_null slotKind)
        | _ => exact ⟨some content, map_eq_ok.mpr ⟨content, hfit, rfl⟩⟩

/-- **A row is read when every slot takes the value in its place.** -/
theorem exists_readAll_iff (kind : Kind) {slots : List Slot} {values : List (Value α)} :
    (∃ arguments, readAll kind slots values = .ok arguments) ↔
      ∀ (i : Nat) (h : i < slots.length), slots[i].Takes values[i]? := by
  induction slots generalizing values with
  | nil => exact ⟨fun _ i h => absurd h (Nat.not_lt_zero i), fun _ => ⟨(), rfl⟩⟩
  | cons slot rest ih =>
    constructor
    · rintro ⟨arguments, h⟩ i hi
      obtain ⟨content, hcontent, h⟩ := bind_eq_ok.mp h
      obtain ⟨more, hmore, -⟩ := bind_eq_ok.mp h
      cases i with
      | zero =>
        rw [← List.head?_eq_getElem?]
        exact exists_read_iff.mp ⟨content, hcontent⟩
      | succ i =>
        rw [← List.getElem?_tail]
        exact ih.mp ⟨more, hmore⟩ i (Nat.lt_of_succ_lt_succ hi)
    · intro h
      have hhead := h 0 (Nat.zero_lt_succ _)
      rw [← List.head?_eq_getElem?] at hhead
      obtain ⟨content, hcontent⟩ := exists_read_iff.mpr hhead
      obtain ⟨more, hmore⟩ := ih.mpr fun i hi => by
        have htake := h (i + 1) (Nat.succ_lt_succ hi)
        rwa [← List.getElem?_tail] at htake
      exact ⟨(content, more), bind_eq_ok.mpr ⟨content, hcontent,
        bind_eq_ok.mpr ⟨more, hmore, rfl⟩⟩⟩

/-- Only an integer beyond the scalars is neither taken nor refused. -/
theorem exists_integer_of_content? {kind : SlotKind} {v : Value α} {fault : ArithmeticFault}
    (h : kind.content? v = .error fault) :
    ∃ n, v = .number (.int n) ∧ Scalar.holds (α := α) n = false := by
  unfold SlotKind.content? at h
  split at h
  · rename_i n
    rcases bind_eq_error.mp h with hfinite | ⟨finite, -, h⟩
    · cases n with
      | int n =>
        refine ⟨n, rfl, Bool.eq_false_iff.mpr fun hholds => ?_⟩
        simp only [Number.isFinite, if_pos hholds] at hfinite
        cases hfinite
      | real x => cases hfinite
    · cases h
  all_goals cases h

theorem exists_integer_of_fit (kind : Kind) (slot : Slot) {v : Value α} {fault : ArithmeticFault}
    (h : fit kind slot v = .error (.arithmetic fault)) :
    ∃ n, v = .number (.int n) ∧ Scalar.holds (α := α) n = false := by
  unfold fit at h
  split at h
  · cases h
  · cases h
  · rename_i hcontent
    exact exists_integer_of_content? hcontent

theorem exists_integer_of_read {kind : Kind} {slot : Slot} {place : Option (Value α)}
    {fault : ArithmeticFault} (h : read kind slot place = .error (.arithmetic fault)) :
    ∃ n, place = some (.number (.int n)) ∧ Scalar.holds (α := α) n = false := by
  obtain ⟨name, slotKind, isRequired⟩ := slot
  cases isRequired with
  | true =>
    cases place with
    | none => cases h
    | some v =>
      obtain ⟨n, rfl, hholds⟩ := exists_integer_of_fit kind ⟨name, slotKind, true⟩ h
      exact ⟨n, rfl, hholds⟩
  | false =>
    simp only [read] at h
    split at h
    · cases h
    · cases h
    · obtain ⟨n, rfl, hholds⟩ :=
        exists_integer_of_fit kind ⟨name, slotKind, false⟩ (map_eq_error.mp h)
      exact ⟨n, rfl, hholds⟩

theorem exists_integer_of_readAll {kind : Kind} {slots : List Slot} {values : List (Value α)}
    {fault : ArithmeticFault} (h : readAll kind slots values = .error (.arithmetic fault)) :
    ∃ n, .number (.int n) ∈ values ∧ Scalar.holds (α := α) n = false := by
  induction slots generalizing values with
  | nil => cases h
  | cons slot rest ih =>
    rcases bind_eq_error.mp h with hread | ⟨content, -, h⟩
    · obtain ⟨n, hhead, hholds⟩ := exists_integer_of_read hread
      exact ⟨n, List.mem_of_mem_head? hhead, hholds⟩
    · rcases bind_eq_error.mp h with hmore | ⟨more, -, h⟩
      · obtain ⟨n, hmem, hholds⟩ := ih hmore
        exact ⟨n, List.mem_of_mem_tail hmem, hholds⟩
      · cases h

end Arguments

namespace Command

variable {instruction : Instruction α}

/-- **An instruction has a command exactly when it conforms.** -/
theorem exists_decode_iff :
    (∃ command, decode instruction = .ok command) ↔ instruction.Conforms := by
  constructor
  · rintro ⟨command, h⟩
    obtain ⟨kind, values, arguments, hitems, hlength, hread, -⟩ := decode_eq_ok.mp h
    exact ⟨kind, values, hitems, hlength, (Arguments.exists_readAll_iff kind).mp ⟨arguments, hread⟩⟩
  · rintro ⟨kind, values, hitems, hlength, htakes⟩
    obtain ⟨arguments, hread⟩ := (Arguments.exists_readAll_iff kind).mpr htakes
    exact ⟨_, decode_eq_ok.mpr ⟨kind, values, arguments, hitems, hlength, hread, rfl⟩⟩

/-- **The rules say all there is**: an instruction that has no command and breaks no rule has an
integer beyond the scalars. -/
theorem exists_integer_of_decode {fault : ArithmeticFault}
    (h : decode instruction = .error (.arithmetic fault)) :
    ∃ n, instruction.toValue.HasInteger n ∧ Scalar.holds (α := α) n = false := by
  by_cases hkind : ∃ kind values, instruction.items? = some (.text (Kind.name kind) :: values)
  · obtain ⟨kind, values, hitems⟩ := hkind
    rw [decode_of_items hitems] at h
    unfold ofArguments at h
    split at h
    · cases h
    · obtain ⟨n, hmem, hholds⟩ := Arguments.exists_integer_of_readAll (map_eq_error.mp h)
      refine ⟨n, ?_, hholds⟩
      have hitem : .number (.int n) ∈ Value.text kind.name :: values :=
        List.mem_cons_of_mem _ hmem
      unfold Instruction.items? at hitems
      split at hitems
      · cases hitems
        exact .item hitem .here
      · cases hitems
        exact .item hitem .here
      · cases hitems
  · obtain ⟨fault', hfault⟩ := exists_fault_of_nameless fun kind values hitems =>
      hkind ⟨kind, values, hitems⟩
    rw [hfault] at h
    cases h

end Command

end

end CanvasScript
