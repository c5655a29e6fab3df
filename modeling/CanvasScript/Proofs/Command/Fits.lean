import CanvasScript.Proofs.Command.Decode

/-!
# What a decoded command holds

The numbers of a command that `decode_command` gives are finite and its colours are styles, so what
comes after decoding need not check them again.

* `Arguments.fits_of_readAll`: arguments that are read from a row of values fit their slots.
* `Command.fits_of_decode`: **a command that is decoded fits**, whatever its kind.
* `Command.fits_of_decodeAll`: **so does every command of a decoded program**; the place of a
  refused instruction holds neither numbers nor colours.
-/

namespace CanvasScript

variable {α : Type}

namespace Command

/-- The numbers of a command. -/
def numbers : Command α → List (Number α)
  | .move motion => motion.numbers
  | .draw _ figure _ => figure.numbers
  | _ => []

/-- The styles that a command names. -/
def colors : Command α → List String
  | .style _ color => [color]
  | .draw _ _ color => color.toList
  | _ => []

/-- The numbers of the command are finite, and its styles denote colours. -/
structure Fits [Scalar α] (command : Command α) : Prop where
  numbers : ∀ n ∈ command.numbers, n.isFinite = .ok true
  colors : ∀ style ∈ command.colors, Rgba.isStyle style = true

end Command

section

variable [Written α]

/-- The content is one that its kind takes. -/
def SlotKind.Fits : (kind : SlotKind) → kind.Content α → Prop
  | .number, n => Number.isFinite n = .ok true
  | .color, style => Rgba.isStyle style = true
  | .flag, _ => True

/-- The content, if there is any, is one that the slot takes. -/
def Slot.Fits : (slot : Slot) → slot.Content α → Prop
  | { isRequired := true, kind, .. }, content => kind.Fits content
  | { isRequired := false, kind, .. }, content => ∀ c, content = some c → kind.Fits c

namespace Arguments

/-- Each of the arguments fits its slot. -/
def Fits : (slots : List Slot) → Arguments α slots → Prop
  | [], _ => True
  | slot :: rest, (content, more) => slot.Fits content ∧ Fits rest more

theorem fits_of_content? {kind : SlotKind} {v : Value α} {content : kind.Content α}
    (h : kind.content? v = .ok (.ok content)) : kind.Fits content := by
  unfold SlotKind.content? at h
  split at h
  · obtain ⟨finite, hfinite, h⟩ := bind_eq_ok.mp h
    cases finite
    · cases h
    · cases h
      exact hfinite
  · cases h
  · split at h
    · rename_i hstyle
      cases h
      exact hstyle
    · cases h
  · cases h
  · exact trivial
  · cases h

theorem fits_of_fit {kind : Kind} {slot : Slot} {v : Value α} {content : slot.kind.Content α}
    (h : fit kind slot v = .ok content) : slot.kind.Fits content := by
  unfold fit at h
  split at h
  · rename_i hcontent
    cases h
    exact fits_of_content? hcontent
  · cases h
  · cases h

theorem fits_of_read {kind : Kind} {slot : Slot} {v : Option (Value α)}
    {content : slot.Content α} (h : read kind slot v = .ok content) : slot.Fits content := by
  obtain ⟨name, slotKind, isRequired⟩ := slot
  cases isRequired with
  | true =>
    cases v with
    | none => cases h
    | some v => exact fits_of_fit h
  | false =>
    intro c hc
    subst hc
    simp only [read] at h
    split at h
    · cases h
    · cases h
    · obtain ⟨c', hfit, hc⟩ := map_eq_ok.mp h
      cases hc
      exact fits_of_fit hfit

/-- **Arguments that are read from a row of values fit their slots.** -/
theorem fits_of_readAll {kind : Kind} :
    ∀ {slots : List Slot} {values : List (Value α)} {arguments : Arguments α slots},
      readAll kind slots values = .ok arguments → Fits slots arguments
  | [], _, _, _ => trivial
  | slot :: rest, values, arguments, h => by
    obtain ⟨content, hcontent, h⟩ := bind_eq_ok.mp h
    obtain ⟨more, hmore, h⟩ := bind_eq_ok.mp h
    cases h
    exact ⟨fits_of_read hcontent, fits_of_readAll hmore⟩

end Arguments

namespace Command

theorem fits_move {motion : Motion α} (h : ∀ n ∈ motion.numbers, n.isFinite = .ok true) :
    (Command.move motion).Fits :=
  ⟨h, fun _ hstyle => nomatch hstyle⟩

theorem fits_draw {paint : Paint} {figure : Figure α} {color : Option String}
    (h : ∀ n ∈ figure.numbers, n.isFinite = .ok true)
    (hcolor : ∀ c, color = some c → Rgba.isStyle c = true) : (draw paint figure color).Fits :=
  ⟨h, fun c hc => hcolor c (Option.mem_toList.mp hc)⟩

end Command

namespace Kind

theorem finite_nil : ∀ n ∈ ([] : List (Number α)), n.isFinite = .ok true :=
  fun _ hn => nomatch hn

theorem finite_cons {n : Number α} {rest : List (Number α)} (h : n.isFinite = .ok true)
    (hrest : ∀ n ∈ rest, n.isFinite = .ok true) : ∀ m ∈ n :: rest, m.isFinite = .ok true :=
  List.forall_mem_cons.mpr ⟨h, hrest⟩

/-- A command of arguments that fit their slots fits. -/
theorem fits_command (kind : Kind) {arguments : Arguments α kind.slots}
    (h : Arguments.Fits kind.slots arguments) : (kind.command arguments).Fits := by
  cases kind with
  | translate | scale | shear =>
    obtain ⟨x, y, ⟨⟩⟩ := arguments
    obtain ⟨hx, hy, -⟩ := h
    exact Command.fits_move (finite_cons hx (finite_cons hy finite_nil))
  | rotate =>
    obtain ⟨angle, ⟨⟩⟩ := arguments
    exact Command.fits_move (finite_cons h.1 finite_nil)
  | matrix =>
    obtain ⟨a, b, c, d, e, f, ⟨⟩⟩ := arguments
    obtain ⟨ha, hb, hc, hd, he, hf, -⟩ := h
    exact Command.fits_move (finite_cons ha (finite_cons hb (finite_cons hc
      (finite_cons hd (finite_cons he (finite_cons hf finite_nil))))))
  | save | restore => exact ⟨finite_nil, fun _ hstyle => nomatch hstyle⟩
  | style paint =>
    obtain ⟨color, ⟨⟩⟩ := arguments
    refine ⟨finite_nil, fun c hc => ?_⟩
    obtain rfl := List.mem_singleton.mp hc
    exact h.1
  | rect paint =>
    obtain ⟨x, y, width, height, color, ⟨⟩⟩ := arguments
    obtain ⟨hx, hy, hwidth, hheight, hcolor, -⟩ := h
    exact Command.fits_draw (finite_cons hx (finite_cons hy
      (finite_cons hwidth (finite_cons hheight finite_nil)))) hcolor
  | triangle paint =>
    obtain ⟨x₁, y₁, x₂, y₂, x₃, y₃, color, ⟨⟩⟩ := arguments
    obtain ⟨hx₁, hy₁, hx₂, hy₂, hx₃, hy₃, hcolor, -⟩ := h
    exact Command.fits_draw (finite_cons hx₁ (finite_cons hy₁ (finite_cons hx₂
      (finite_cons hy₂ (finite_cons hx₃ (finite_cons hy₃ finite_nil)))))) hcolor
  | arc paint =>
    obtain ⟨x, y, radius, start, finish, counterclockwise, color, ⟨⟩⟩ := arguments
    obtain ⟨hx, hy, hradius, hstart, hfinish, -, hcolor, -⟩ := h
    exact Command.fits_draw (finite_cons hx (finite_cons hy
      (finite_cons hradius (finite_cons hstart (finite_cons hfinish finite_nil))))) hcolor

end Kind

namespace Command

theorem fits_invalid (items : List (Value α)) (reason : String) : (invalid items reason).Fits :=
  ⟨fun _ hn => (nomatch hn), fun _ hstyle => nomatch hstyle⟩

/-- **A command that is decoded fits.** -/
theorem fits_of_decode {instruction : Instruction α} {command : Command α}
    (h : decode instruction = .ok command) : command.Fits := by
  obtain ⟨kind, values, arguments, -, -, hread, rfl⟩ := decode_eq_ok.mp h
  exact kind.fits_command (Arguments.fits_of_readAll hread)

theorem fits_of_decodeSlot {index : Nat} {instruction : Instruction α}
    {slot : Command α × Option (CommandError α)} (h : decodeSlot index instruction = .ok slot) :
    slot.1.Fits := by
  unfold decodeSlot at h
  split at h
  · rename_i hdecode
    cases h
    exact fits_of_decode hdecode
  · cases h
    exact fits_invalid _ _
  · cases h

theorem fits_of_decodeFrom {index : Nat} :
    ∀ {instructions : List (Instruction α)} {decoded : Decoded α},
      decodeFrom index instructions = .ok decoded → ∀ command ∈ decoded.commands, command.Fits := by
  intro instructions
  induction instructions generalizing index with
  | nil =>
    intro decoded h
    cases h
    exact fun _ hmem => nomatch hmem
  | cons instruction rest ih =>
    intro decoded h
    obtain ⟨slot, hslot, h⟩ := bind_eq_ok.mp h
    obtain ⟨more, hmore, h⟩ := bind_eq_ok.mp h
    cases h
    intro command hmem
    rcases List.mem_cons.mp hmem with rfl | hmem
    · exact fits_of_decodeSlot hslot
    · exact ih hmore command hmem

/-- **Every command of a decoded program fits**, under both policies. -/
theorem fits_of_decodeAll {policy : Policy} {instructions : List (Instruction α)}
    {decoded : Decoded α} (h : decodeAll policy instructions = .ok decoded) :
    ∀ command ∈ decoded.commands, command.Fits := by
  unfold decodeAll at h
  split at h
  · cases h
  · rename_i hdecoded
    split at h
    · cases h
    · cases h
      exact fits_of_decodeFrom hdecoded

end Command

end

end CanvasScript
