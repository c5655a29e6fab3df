import CanvasScript.Proofs.Command.Fits
import Mathlib.Data.List.Forall2

/-!
# Commands and their instructions

A command and its instruction tell the same: what is decoded from an instruction (`decode_command`)
is written back (`encode_command`) as that instruction, up to nulls at the end, and what is written
is decoded as it was.

* `Arguments.values` are the values of arguments in the places of their slots, null where one is
  omitted. They are the fields of the command (`fields_command`).
* `items_of_decode`: **a decoded command is written as the instruction was**.
* `decodeAll_of_forall₂`: instructions that are all decoded make up a program.
* `decode_items`: **a command that fits is decoded from what is written**, and so is a program
  (`decodeAll_items`).
-/

namespace CanvasScript

variable {α : Type}

/-! ## Nulls at the end -/

namespace Command

theorem dropNulls_append_nulls (values : List (Value α)) (count : Nat) :
    dropNulls (values ++ List.replicate count .null) = dropNulls values := by
  unfold dropNulls
  rw [List.reverse_append, List.reverse_replicate, List.dropWhile_append_of_pos]
  intro v hv
  rw [List.eq_of_mem_replicate hv]
  rfl

/-- What is dropped are nulls. -/
theorem exists_nulls (values : List (Value α)) :
    ∃ count, values = dropNulls values ++ List.replicate count .null := by
  obtain ⟨nulls, hnulls⟩ : ∃ nulls, nulls = values.reverse.takeWhile Value.isNull := ⟨_, rfl⟩
  have hall : ∀ v ∈ nulls, v = .null := fun v hv => by
    rw [hnulls] at hv
    exact Value.isNull_iff.mp (List.all_eq_true.mp List.all_takeWhile v hv)
  have hsplit := List.takeWhile_append_dropWhile (p := Value.isNull) (l := values.reverse)
  rw [← hnulls, List.eq_replicate_of_mem hall] at hsplit
  refine ⟨nulls.length, ?_⟩
  unfold dropNulls
  rw [← List.reverse_replicate, ← List.reverse_append, hsplit, List.reverse_reverse]

/-- Values without nulls are left as they are. -/
theorem dropNulls_eq_self {values : List (Value α)} (h : ∀ v ∈ values, v ≠ .null) :
    dropNulls values = values := by
  obtain ⟨count, hcount⟩ := exists_nulls values
  cases count with
  | zero => rwa [List.replicate_zero, List.append_nil, eq_comm] at hcount
  | succ count =>
    refine absurd rfl (h .null ?_)
    rw [hcount]
    exact List.mem_append_right _ (List.mem_replicate.mpr ⟨Nat.succ_ne_zero count, rfl⟩)

end Command

/-! ## Fields -/

/-- The numbers among the fields of a figure are those of the figure. -/
theorem Figure.number_mem_fields {figure : Figure α} {n : Number α} :
    Value.number n ∈ figure.fields ↔ n ∈ figure.numbers := by
  cases figure with
  | arc x y radius start finish counterclockwise =>
    cases counterclockwise <;> simp [fields, numbers]
  | _ => simp [fields, numbers]

/-- A figure has no texts. -/
theorem Figure.text_not_mem_fields {figure : Figure α} {s : String} :
    Value.text s ∉ figure.fields := by
  cases figure with
  | arc x y radius start finish counterclockwise => cases counterclockwise <;> simp [fields]
  | _ => simp [fields]

namespace Command

variable {command : Command α}

/-- The numbers among the fields are those of the command. -/
theorem number_mem_fields (h : command.isInvalid = false) {n : Number α} :
    Value.number n ∈ command.fields ↔ n ∈ command.numbers := by
  cases command with
  | draw paint figure color =>
    cases color <;> simp [fields, numbers, Figure.number_mem_fields]
  | invalid items reason => cases h
  | _ => simp [fields, numbers]

/-- The texts among the fields are the styles that the command names. -/
theorem text_mem_fields (h : command.isInvalid = false) {style : String} :
    Value.text style ∈ command.fields ↔ style ∈ command.colors := by
  cases command with
  | draw paint figure color =>
    cases color <;> simp [fields, colors, Figure.text_not_mem_fields, eq_comm]
  | invalid items reason => cases h
  | _ => simp [fields, colors]

end Command

/-! ## Values of arguments -/

/-- The value of the content of a slot. -/
def SlotKind.value : (kind : SlotKind) → kind.Content α → Value α
  | .number, n => .number n
  | .color, style => .text style
  | .flag, b => .flag b

/-- The value in the place of a slot, null where the argument is omitted. -/
def Slot.value : (slot : Slot) → slot.Content α → Value α
  | { isRequired := true, kind, .. }, content => kind.value content
  | { isRequired := false, kind, .. }, content => content.elim .null kind.value

/-- The values of arguments in the places of their slots. -/
def Arguments.values : (slots : List Slot) → Arguments α slots → List (Value α)
  | [], _ => []
  | slot :: rest, (content, more) => slot.value content :: values rest more

theorem Arguments.length_values :
    ∀ (slots : List Slot) (arguments : Arguments α slots),
      (values slots arguments).length = slots.length
  | [], _ => rfl
  | _ :: rest, (_, more) => congrArg Nat.succ (length_values rest more)

/-- The fields of a command are the values of its arguments. -/
theorem Kind.fields_command (kind : Kind) (arguments : Arguments α kind.slots) :
    (kind.command arguments).fields = Arguments.values kind.slots arguments := by
  cases kind <;> rfl

/-- A command that is not invalid is one of some kind with its arguments. -/
theorem Command.exists_arguments {command : Command α} (h : command.isInvalid = false) :
    ∃ (kind : Kind) (arguments : Arguments α kind.slots), kind.command arguments = command := by
  cases command with
  | move motion =>
    cases motion with
    | translate x y => exact ⟨.translate, (x, y, ()), rfl⟩
    | rotate angle => exact ⟨.rotate, (angle, ()), rfl⟩
    | scale x y => exact ⟨.scale, (x, y, ()), rfl⟩
    | shear x y => exact ⟨.shear, (x, y, ()), rfl⟩
    | matrix a b c d e f => exact ⟨.matrix, (a, b, c, d, e, f, ()), rfl⟩
  | save => exact ⟨.save, (), rfl⟩
  | restore => exact ⟨.restore, (), rfl⟩
  | style paint color => exact ⟨.style paint, (color, ()), rfl⟩
  | draw paint figure color =>
    cases figure with
    | rect x y width height => exact ⟨.rect paint, (x, y, width, height, color, ()), rfl⟩
    | triangle x₁ y₁ x₂ y₂ x₃ y₃ =>
      exact ⟨.triangle paint, (x₁, y₁, x₂, y₂, x₃, y₃, color, ()), rfl⟩
    | arc x y radius start finish counterclockwise =>
      exact ⟨.arc paint, (x, y, radius, start, finish, counterclockwise, color, ()), rfl⟩
  | invalid items reason => cases h

theorem Command.isInvalid_command (kind : Kind) (arguments : Arguments α kind.slots) :
    (kind.command arguments).isInvalid = false := by
  cases kind <;> rfl

/-- The items of a command of a kind. -/
theorem Command.items_command (kind : Kind) (arguments : Arguments α kind.slots) :
    (kind.command arguments).items =
      .text kind.name :: dropNulls (Arguments.values kind.slots arguments) := by
  rw [← kind.fields_command arguments]
  cases kind <;> rfl

/-! ## Reading and writing -/

section

variable [Written α]

namespace Arguments

/-- What fits a slot is its own value. -/
theorem value_of_content? {kind : SlotKind} {v : Value α} {content : kind.Content α}
    (h : kind.content? v = .ok (.ok content)) : kind.value content = v := by
  unfold SlotKind.content? at h
  split at h
  · obtain ⟨finite, hfinite, h⟩ := bind_eq_ok.mp h
    cases finite
    · cases h
    · cases h
      rfl
  · cases h
  · split at h
    · cases h
      rfl
    · cases h
  · cases h
  · cases h
    rfl
  · cases h

theorem content?_value {kind : SlotKind} {content : kind.Content α} (h : kind.Fits content) :
    kind.content? (kind.value content) = .ok (.ok content) := by
  cases kind with
  | number => exact bind_eq_ok.mpr ⟨true, h, rfl⟩
  | color =>
    have hstyle : Rgba.isStyle content = true := h
    exact congrArg Except.ok (if_pos hstyle)
  | flag => rfl

theorem value_of_fit {kind : Kind} {slot : Slot} {v : Value α} {content : slot.kind.Content α}
    (h : fit kind slot v = .ok content) : slot.kind.value content = v := by
  unfold fit at h
  split at h
  · rename_i hcontent
    cases h
    exact value_of_content? hcontent
  · cases h
  · cases h

/-- What is read in the place of a slot is its value there, or else nothing. -/
theorem value_of_read {kind : Kind} {slot : Slot} {v : Option (Value α)}
    {content : slot.Content α} (h : read kind slot v = .ok content) :
    slot.value content = v.getD .null := by
  obtain ⟨name, slotKind, isRequired⟩ := slot
  cases isRequired with
  | true =>
    cases v with
    | none => cases h
    | some v => exact value_of_fit h
  | false =>
    simp only [read] at h
    split at h
    · cases h
      rfl
    · cases h
      rfl
    · obtain ⟨c, hfit, rfl⟩ := map_eq_ok.mp h
      exact value_of_fit hfit

/-- **Arguments that are read have the values in their places**, and nulls behind them. -/
theorem values_of_readAll {kind : Kind} :
    ∀ {slots : List Slot} {values : List (Value α)} {arguments : Arguments α slots},
      readAll kind slots values = .ok arguments → values.length ≤ slots.length →
        ∃ count, Arguments.values slots arguments = values ++ List.replicate count .null
  | [], values, _, _, hlength => by
    rw [List.eq_nil_of_length_eq_zero (Nat.le_zero.mp hlength)]
    exact ⟨0, rfl⟩
  | slot :: rest, values, arguments, h, hlength => by
    obtain ⟨content, hcontent, h⟩ := bind_eq_ok.mp h
    obtain ⟨more, hmore, h⟩ := bind_eq_ok.mp h
    cases h
    have hvalue := value_of_read hcontent
    cases values with
    | nil =>
      obtain ⟨count, hcount⟩ := values_of_readAll hmore (Nat.zero_le _)
      exact ⟨count + 1, List.cons_eq_cons.mpr ⟨hvalue, hcount⟩⟩
    | cons v values =>
      obtain ⟨count, hcount⟩ := values_of_readAll hmore (Nat.le_of_succ_le_succ hlength)
      exact ⟨count, List.cons_eq_cons.mpr ⟨hvalue, hcount⟩⟩

theorem fit_value (kind : Kind) (slot : Slot) {content : slot.kind.Content α}
    (h : slot.kind.Fits content) : fit kind slot (slot.kind.value content) = .ok content := by
  unfold fit
  rw [content?_value h]

theorem read_value (kind : Kind) {slot : Slot} {content : slot.Content α} (h : slot.Fits content) :
    read kind slot (some (slot.value content)) = .ok content := by
  obtain ⟨name, slotKind, isRequired⟩ := slot
  cases isRequired with
  | true => exact fit_value kind ⟨name, slotKind, true⟩ h
  | false =>
    cases content with
    | none => rfl
    | some content =>
      have hfit := fit_value kind ⟨name, slotKind, false⟩ (h content rfl)
      cases slotKind with
      | number | color | flag => exact congrArg (Except.map some) hfit

/-- **Arguments that fit are read from their values.** -/
theorem readAll_values (kind : Kind) :
    ∀ {slots : List Slot} {arguments : Arguments α slots}, Fits slots arguments →
      readAll kind slots (Arguments.values slots arguments) = .ok arguments
  | [], _, _ => rfl
  | _ :: _, (_, _), ⟨hcontent, hmore⟩ =>
    bind_eq_ok.mpr ⟨_, read_value kind hcontent, bind_eq_ok.mpr ⟨_, readAll_values kind hmore, rfl⟩⟩

/-- A null counts as nothing wherever it is taken. -/
theorem read_none {kind : Kind} {slot : Slot} {content : slot.Content α}
    (h : read kind slot (some .null) = .ok content) : read kind slot none = .ok content := by
  obtain ⟨name, slotKind, isRequired⟩ := slot
  cases isRequired with
  | true => cases slotKind <;> cases h
  | false => exact h

/-- Nulls at the end are not needed. -/
theorem readAll_of_nulls {kind : Kind} :
    ∀ {slots : List Slot} {values : List (Value α)} {count : Nat} {arguments : Arguments α slots},
      readAll kind slots (values ++ List.replicate count .null) = .ok arguments →
        readAll kind slots values = .ok arguments
  | [], _, _, _, h => h
  | slot :: rest, values, count, arguments, h => by
    obtain ⟨content, hcontent, h⟩ := bind_eq_ok.mp h
    obtain ⟨more, hmore, h⟩ := bind_eq_ok.mp h
    cases h
    cases values with
    | cons v values =>
      exact bind_eq_ok.mpr ⟨content, hcontent, bind_eq_ok.mpr ⟨more, readAll_of_nulls hmore, rfl⟩⟩
    | nil =>
      cases count with
      | zero => exact bind_eq_ok.mpr ⟨content, hcontent, bind_eq_ok.mpr ⟨more, hmore, rfl⟩⟩
      | succ count =>
        -- behind the first null stand the rest of them
        have hrest : readAll kind rest ([] ++ List.replicate count .null) = .ok more := hmore
        exact bind_eq_ok.mpr ⟨content, read_none hcontent,
          bind_eq_ok.mpr ⟨more, readAll_of_nulls hrest, rfl⟩⟩

end Arguments

/-- Arguments fit when their numbers are finite and their texts are styles. -/
theorem Arguments.fits_of_values :
    ∀ {slots : List Slot} {arguments : Arguments α slots},
      (∀ n, Value.number n ∈ values slots arguments → n.isFinite = .ok true) →
      (∀ style, Value.text style ∈ values slots arguments → Rgba.isStyle style = true) →
        Fits slots arguments
  | [], _, _, _ => trivial
  | slot :: rest, (content, more), hnumbers, htexts => by
    have hcontent {kind : SlotKind} (c : kind.Content α)
        (hmem : kind.value c ∈ values (slot :: rest) (content, more)) : kind.Fits c := by
      cases kind with
      | number => exact hnumbers c hmem
      | color => exact htexts c hmem
      | flag => trivial
    refine ⟨?_, fits_of_values (fun n hn => hnumbers n (List.mem_cons_of_mem _ hn))
      fun style hstyle => htexts style (List.mem_cons_of_mem _ hstyle)⟩
    obtain ⟨name, slotKind, isRequired⟩ := slot
    cases isRequired with
    | true => exact hcontent content (List.mem_cons_self ..)
    | false =>
      rintro c rfl
      exact hcontent c (List.mem_cons_self ..)

/-- The arguments of a command that fits fit their slots. -/
theorem Kind.fits_arguments (kind : Kind) {arguments : Arguments α kind.slots}
    (h : (kind.command arguments).Fits) : Arguments.Fits kind.slots arguments := by
  have hvalid := Command.isInvalid_command kind arguments
  refine Arguments.fits_of_values (fun n hn => h.numbers n ?_) fun style hstyle => h.colors style ?_
  · rw [← kind.fields_command arguments] at hn
    exact (Command.number_mem_fields hvalid).mp hn
  · rw [← kind.fields_command arguments] at hstyle
    exact (Command.text_mem_fields hvalid).mp hstyle

namespace Command

/-- The items of a command whose arguments are read from a row of values. -/
theorem items_of_readAll {kind : Kind} {values : List (Value α)}
    {arguments : Arguments α kind.slots}
    (h : Arguments.readAll kind kind.slots values = .ok arguments)
    (hlength : values.length ≤ kind.slots.length) :
    (kind.command arguments).items = .text kind.name :: dropNulls values := by
  obtain ⟨count, hcount⟩ := Arguments.values_of_readAll h hlength
  rw [items_command, hcount, dropNulls_append_nulls]

/-- **A decoded command is written as the instruction was**, but for nulls at the end. -/
theorem items_of_decode {instruction : Instruction α} {command : Command α}
    (h : decode instruction = .ok command) :
    ∃ kind values, instruction.items? = some (.text (Kind.name kind) :: values) ∧
      command.items = .text kind.name :: dropNulls values ∧ command.isInvalid = false := by
  obtain ⟨kind, values, arguments, hitems, hlength, hread, rfl⟩ := decode_eq_ok.mp h
  exact ⟨kind, values, hitems, items_of_readAll hread hlength, isInvalid_command kind arguments⟩

/-- **A command that fits is decoded from what is written.** -/
theorem decode_items {command : Command α} (h : command.Fits) (hvalid : command.isInvalid = false) :
    decode (.row command.items) = .ok command := by
  obtain ⟨kind, arguments, rfl⟩ := exists_arguments hvalid
  obtain ⟨count, hcount⟩ := exists_nulls (Arguments.values kind.slots arguments)
  have hlength := Arguments.length_values kind.slots arguments
  have hread := Arguments.readAll_values kind (kind.fits_arguments h)
  rw [hcount] at hread hlength
  rw [List.length_append] at hlength
  refine decode_eq_ok.mpr ⟨kind, _, arguments, congrArg some (items_command kind arguments), ?_,
    Arguments.readAll_of_nulls hread, rfl⟩
  omega

theorem decodeFrom_of_forall₂ {instructions : List (Instruction α)} {commands : List (Command α)}
    (h : List.Forall₂ (fun instruction command => decode instruction = .ok command) instructions
      commands) (index : Nat) : decodeFrom index instructions = .ok ⟨commands, []⟩ := by
  induction h generalizing index with
  | nil => rfl
  | @cons instruction command rest more hdecode _ ih =>
    have hslot : decodeSlot index instruction = .ok (command, none) := by
      unfold decodeSlot
      rw [hdecode]
    rw [decodeFrom, hslot, ih]
    rfl

/-- **Instructions that are all decoded make up a program**, under every policy. -/
theorem decodeAll_of_forall₂ {instructions : List (Instruction α)} {commands : List (Command α)}
    (h : List.Forall₂ (fun instruction command => decode instruction = .ok command) instructions
      commands) (policy : Policy) : decodeAll policy instructions = .ok ⟨commands, []⟩ := by
  unfold decodeAll
  rw [decodeFrom_of_forall₂ h]
  exact if_neg fun ⟨_, hne⟩ => hne rfl

/-- **A program that fits is decoded from what is written**, under every policy. -/
theorem decodeAll_items {commands : List (Command α)}
    (h : ∀ command ∈ commands, command.Fits ∧ command.isInvalid = false) (policy : Policy) :
    decodeAll policy (commands.map fun command => .row command.items) = .ok ⟨commands, []⟩ := by
  refine decodeAll_of_forall₂ (List.forall₂_map_left_iff.mpr ?_) policy
  exact List.forall₂_same.mpr fun command hmem => decode_items (h command hmem).1 (h command hmem).2

end Command

end

end CanvasScript
