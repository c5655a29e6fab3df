import CanvasScript.Proofs.Command.Broken
import CanvasScript.Proofs.Command.Skip

/-!
# Programs written as lines

A program that was decoded may hold what its lines (`format_program_text`) cannot tell apart:
integers that are no doubles, blanks around its colours, and arcs with a colour but no direction.
What comes back from the lines (`parse_program_text`) is a program that draws the same.

* `Command.Alike` are commands of one kind that draw the same.
* `Command.alike_reread`: **what comes back of a command draws the same**.
* `readLines_written`: **a program comes back from its lines**, just when none of its colours breaks
  a line.
-/

namespace CanvasScript

open Text

/-! ## Programs without refused instructions -/

namespace Command

section

variable {α : Type} [Written α]

variable {instructions : List (Instruction α)} {decoded : Decoded α}

theorem decode_of_decodeSlot {index : Nat} {instruction : Instruction α} {command : Command α}
    (h : decodeSlot index instruction = .ok (command, none)) :
    decode instruction = .ok command := by
  unfold decodeSlot at h
  split at h
  · rename_i hdecode
    cases h
    exact hdecode
  · cases h
  · cases h

/-- Where no instruction is refused, each is decoded to its command. -/
theorem forall₂_of_decodeFrom {index : Nat} (h : decodeFrom index instructions = .ok decoded)
    (herrors : decoded.errors = []) :
    List.Forall₂ (fun instruction command => decode instruction = .ok command) instructions
      decoded.commands := by
  induction instructions generalizing index decoded with
  | nil =>
    cases h
    exact .nil
  | cons instruction rest ih =>
    obtain ⟨⟨command, error⟩, hslot, h⟩ := bind_eq_ok.mp h
    obtain ⟨more, hmore, h⟩ := bind_eq_ok.mp h
    cases h
    obtain ⟨herror, herrors⟩ := List.append_eq_nil_iff.mp herrors
    obtain rfl : error = none := Option.toList_eq_nil_iff.mp herror
    exact .cons (decode_of_decodeSlot hslot) (ih hmore herrors)

/-- **A program that is decoded under `strict` is decoded instruction by instruction.** -/
theorem forall₂_of_decodeAll (h : decodeAll .strict instructions = .ok decoded) :
    List.Forall₂ (fun instruction command => decode instruction = .ok command) instructions
      decoded.commands := by
  unfold decodeAll at h
  split at h
  · cases h
  · rename_i hdecoded
    split at h
    · cases h
    · rename_i herrors
      cases h
      exact forall₂_of_decodeFrom hdecoded (not_not.mp fun hne => herrors ⟨rfl, hne⟩)

/-- Its commands are valid. -/
theorem isInvalid_of_decodeAll (h : decodeAll .strict instructions = .ok decoded) :
    ∀ command ∈ decoded.commands, command.isInvalid = false :=
  ((List.forall₂_and_left _ _).mp ((forall₂_of_decodeAll h).flip.imp fun _ _ hdecode =>
    ⟨isInvalid_of_decode hdecode, hdecode⟩)).1

end

/-! ## Commands that draw the same -/

/-- Whether the command draws an arc that runs counterclockwise. -/
def isCounterclockwise {α : Type} : Command α → Bool
  | .draw _ figure _ => figure.isCounterclockwise
  | _ => false

/-- Commands that draw the same: they are of one kind, their numbers are converted to equal doubles,
an arc runs in the same direction, and their styles denote the same colours. -/
structure Alike (command again : Command Float) : Prop where
  kind : ∃ kind, command.kind? = some kind ∧ again.kind? = some kind
  numbers : List.Forall₂ (fun m n : Number Float => ∃ x y, m.toScalar? = .ok x ∧
    n.toScalar? = .ok y ∧ Scalar.same x y = true) command.numbers again.numbers
  direction : again.isCounterclockwise = command.isCounterclockwise
  colors : List.Forall₂ (fun style style' => ∃ color, Rgba.ofStyle style = .ok color ∧
    Rgba.ofStyle style' = .ok color) command.colors again.colors

theorem isCounterclockwise_reread (command : Command Float) :
    command.reread.isCounterclockwise = command.isCounterclockwise := by
  cases command with
  | draw paint figure color =>
    cases figure with
    | arc x y radius start finish counterclockwise =>
      cases color <;> cases counterclockwise <;> rfl
    | _ => cases color <;> rfl
  | _ => rfl

/-- **What comes back of a command draws the same.** -/
theorem alike_reread {command : Command Float} (h : command.Fits)
    (hvalid : command.isInvalid = false) : command.Alike command.reread := by
  obtain ⟨kind, hkind⟩ := exists_kind? hvalid
  refine ⟨⟨kind, hkind, (kind?_reread command).trans hkind⟩, ?_, isCounterclockwise_reread command,
    ?_⟩
  · rw [numbers_reread, List.forall₂_map_right_iff, List.forall₂_same]
    intro n hn
    have hfinite := h.numbers n hn
    obtain ⟨r, hr⟩ := Number.exists_toRat?_toScalar hfinite
    exact ⟨_, _, Number.toScalar?_eq hfinite,
      Number.toScalar?_eq (Number.isFinite_reread hfinite),
      (Binary64.same_iff hr (Number.toRat?_reread hr)).mpr rfl⟩
  · rw [colors_reread, List.forall₂_map_right_iff, List.forall₂_same]
    intro style hstyle
    obtain ⟨color, hcolor⟩ := isOk_iff.mp (h.colors style hstyle)
    exact ⟨color, hcolor, Rgba.ofStyle_bareStyle hcolor⟩

end Command

/-! ## Programs -/

section

variable {instructions : List (Instruction Float)} {decoded : Decoded Float}

/-- The instructions of what comes back of a program are decoded to it. -/
theorem decodeAll_reread (h : Command.decodeAll .strict instructions = .ok decoded)
    (policy : Policy) :
    Command.decodeAll policy (decoded.commands.map fun command => .row command.reread.items) =
      .ok ⟨decoded.commands.map Command.reread, []⟩ := by
  have hfits : ∀ command ∈ decoded.commands.map Command.reread,
      command.Fits ∧ command.isInvalid = false := by
    rintro _ hreread
    obtain ⟨command, hmem, rfl⟩ := List.mem_map.mp hreread
    exact ⟨Command.fits_reread (Command.fits_of_decodeAll h command hmem),
      (Command.isInvalid_reread command).trans (Command.isInvalid_of_decodeAll h command hmem)⟩
  have hdecode := Command.decodeAll_items hfits policy
  rwa [List.map_map] at hdecode

/-- **A program comes back from its lines**, just when none of its colours breaks a line. What is
decoded under `strict` is written as lines, and what is read of these is decoded, under either
policy, to as many commands that draw the same. -/
theorem readLines_written (h : Command.decodeAll .strict instructions = .ok decoded) :
    ((∃ rows, readLines (α := Float) (Command.textLines decoded.commands) = .ok rows) ↔
      ∀ command ∈ decoded.commands, ∀ style ∈ command.colors, Unbroken style.toList) ∧
    ∀ rows, readLines (Command.textLines decoded.commands) = .ok rows → ∃ again,
      (∀ policy, Command.decodeAll policy (rows.map .row) = .ok again) ∧
      List.Forall₂ Command.Alike decoded.commands again.commands := by
  have hfits := Command.fits_of_decodeAll h
  have hvalid := Command.isInvalid_of_decodeAll h
  have hunbroken (hread : ∃ rows,
      readLines (α := Float) (Command.textLines decoded.commands) = .ok rows) :
      ∀ command ∈ decoded.commands, ∀ style ∈ command.colors, Unbroken style.toList := by
    obtain ⟨rows, hrows⟩ := hread
    intro command hmem style hstyle
    by_contra hbroken
    exact readLines_broken (fun command hmem => ⟨hfits command hmem, hvalid command hmem⟩)
      hmem hstyle hbroken rows hrows
  have hreread (hcolors : ∀ command ∈ decoded.commands, ∀ style ∈ command.colors,
      Unbroken style.toList) := readLines_textLines_reread fun command hmem =>
    ⟨hvalid command hmem, hfits command hmem, hcolors command hmem⟩
  refine ⟨⟨hunbroken, fun hcolors => ⟨_, hreread hcolors⟩⟩, fun rows hrows => ?_⟩
  obtain rfl := Except.ok.inj (hrows.symm.trans (hreread (hunbroken ⟨rows, hrows⟩)))
  refine ⟨⟨decoded.commands.map Command.reread, []⟩, fun policy => ?_, ?_⟩
  · rw [List.map_map]
    exact decodeAll_reread h policy
  · rw [List.forall₂_map_right_iff, List.forall₂_same]
    exact fun command hmem => Command.alike_reread (hfits command hmem) (hvalid command hmem)

end

/-- A negative zero, an integer between two doubles, a colour with blanks around it, and an arc with
a colour but no direction. -/
def lossyInstructions : List (Instruction Float) :=
  [.value (.array [.text "translate", .real (-0.0), .int 9007199254740993]),
    .value (.array [.text "fillStyle", .text "  rgb(1, 2, 3)\t"]),
    .value (.array [.text "strokeArc", .int 0, .real 2.5, .int 5, .int 0, .int 270, .null,
      .text " Red"])]

theorem readLines_written_lossy :
    ∃ decoded rows again, Command.decodeAll .strict lossyInstructions = .ok decoded ∧
      readLines (Command.textLines decoded.commands) = .ok rows ∧
      (∀ policy, Command.decodeAll policy (rows.map .row) = .ok again) ∧
      List.Forall₂ Command.Alike decoded.commands again.commands := by
  have hcheck : ((Command.decodeAll .strict lossyInstructions).toOption.map fun decoded =>
      (readLines (α := Float) (Command.textLines decoded.commands)).isOk) = some true := by
    decide +kernel
  obtain ⟨decoded, hdecoded, hcheck⟩ := Option.map_eq_some_iff.mp hcheck
  have hdecoded := toOption_eq_some.mp hdecoded
  obtain ⟨rows, hrows⟩ := isOk_iff.mp hcheck
  obtain ⟨again, hagain, halike⟩ := (readLines_written hdecoded).2 rows hrows
  exact ⟨decoded, rows, again, hdecoded, hrows, hagain, halike⟩

/-- **A colour with a line break behind it is lost**: the program is decoded, but its lines are not
read. -/
theorem readLines_lineBreak :
    ∃ decoded : Decoded Float,
      Command.decodeAll .strict [.value (.array [.text "fillStyle", .text "red\n"])] =
        .ok decoded ∧
      ∀ rows, readLines (α := Float) (Command.textLines decoded.commands) ≠ .ok rows := by
  have hcheck : ((Command.decodeAll (α := Float) .strict
      [.value (.array [.text "fillStyle", .text "red\n"])]).toOption.map fun decoded =>
      (readLines (α := Float) (Command.textLines decoded.commands)).isOk) = some false := by
    decide +kernel
  obtain ⟨decoded, hdecoded, hcheck⟩ := Option.map_eq_some_iff.mp hcheck
  refine ⟨decoded, toOption_eq_some.mp hdecoded, fun rows hrows => ?_⟩
  rw [hrows] at hcheck
  cases hcheck

end CanvasScript
