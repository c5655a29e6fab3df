import CanvasScript.Command.Line
import CanvasScript.Proofs.Binary64.Integer
import CanvasScript.Proofs.Command.Wire

/-!
# Plain commands

Lines write a scalar that equals an integer as that integer (`_format_param`). So what is read from
them are commands in their plainest form, which have the same values.

* `Number.plain` is the plainest form of a number, of the same value (`toRat?_plain`).
* `Command.mapNumbers` changes the numbers of a command and nothing else: its items change at the
  numbers only (`items_mapNumbers`).
* `Command.fits_plain`: **a command that fits still does in its plainest form**.
* `Command.line_plain`: **a command and its plainest form have the same line**.
-/

namespace CanvasScript

/-! ## Numbers -/

namespace Number

section

variable {α : Type} [Scalar α]

/-- The number in its plainest form: the integer that it equals, if there is one. -/
def plain : Number α → Number α
  | .int n => .int n
  | .real x =>
    match Scalar.whole? x with
    | some n => .int n
    | none => .real x

theorem plain_of_some {x : α} {n : Int} (h : Scalar.whole? x = some n) :
    (Number.real x).plain = .int n := by
  unfold plain
  dsimp only
  rw [h]

theorem plain_of_none {x : α} (h : Scalar.whole? x = none) : (Number.real x).plain = .real x := by
  unfold plain
  dsimp only
  rw [h]

theorem plain_plain (n : Number α) : n.plain.plain = n.plain := by
  cases n with
  | int n => rfl
  | real x =>
    cases h : Scalar.whole? x with
    | some n => rw [plain_of_some h, plain]
    | none => rw [plain_of_none h, plain_of_none h]

end

/-- A number is written in its plainest form. -/
theorem plainText_eq {α : Type} [Written α] (n : Number α) : n.plainText = n.plain.text := by
  cases n with
  | int n => rfl
  | real x =>
    unfold plainText plain
    dsimp only
    cases Scalar.whole? x <;> rfl

/-- The rational that a number equals. -/
def toRat? : Number Float → Except ArithmeticFault Rat
  | .int n => .ok n
  | .real x => Binary64.toRat? x

/-- **The plainest form has the same value.** -/
theorem toRat?_plain (n : Number Float) : n.plain.toRat? = n.toRat? := by
  cases n with
  | int n => rfl
  | real x =>
    cases h : Scalar.whole? x with
    | some n =>
      rw [plain_of_some h]
      exact (Binary64.whole?_eq_some.mp h).symm
    | none => rw [plain_of_none h]

/-- **The plainest form of a finite number is finite.** -/
theorem isFinite_plain {n : Number Float} (h : n.isFinite = .ok true) :
    n.plain.isFinite = .ok true := by
  cases n with
  | int n => exact h
  | real x =>
    cases hwhole : Scalar.whole? x with
    | some n =>
      rw [plain_of_some hwhole]
      exact if_pos (Binary64.holds_of_toRat? (Binary64.whole?_eq_some.mp hwhole))
    | none => rwa [plain_of_none hwhole]

end Number

/-! ## Changed numbers -/

variable {α : Type}

/-- The value with its number changed, if it is one. -/
def Value.mapNumber (f : Number α → Number α) : Value α → Value α
  | .number n => .number (f n)
  | v => v

theorem Value.isNull_mapNumber (f : Number α → Number α) (v : Value α) :
    (v.mapNumber f).isNull = v.isNull := by
  cases v <;> rfl

/-- The motion with its numbers changed. -/
def Motion.mapNumbers (f : Number α → Number α) : Motion α → Motion α
  | .translate x y => .translate (f x) (f y)
  | .rotate angle => .rotate (f angle)
  | .scale x y => .scale (f x) (f y)
  | .shear x y => .shear (f x) (f y)
  | .matrix a b c d e g => .matrix (f a) (f b) (f c) (f d) (f e) (f g)

/-- The figure with its numbers changed. -/
def Figure.mapNumbers (f : Number α → Number α) : Figure α → Figure α
  | .rect x y width height => .rect (f x) (f y) (f width) (f height)
  | .triangle x₁ y₁ x₂ y₂ x₃ y₃ => .triangle (f x₁) (f y₁) (f x₂) (f y₂) (f x₃) (f y₃)
  | .arc x y radius start finish counterclockwise =>
    .arc (f x) (f y) (f radius) (f start) (f finish) counterclockwise

namespace Command

/-- The command with its numbers changed. What was refused stays as it was. -/
def mapNumbers (f : Number α → Number α) : Command α → Command α
  | .move motion => .move (motion.mapNumbers f)
  | .draw paint figure color => .draw paint (figure.mapNumbers f) color
  | command => command

variable (f : Number α → Number α) (command : Command α)

theorem isInvalid_mapNumbers : (command.mapNumbers f).isInvalid = command.isInvalid := by
  cases command <;> rfl

theorem kind?_mapNumbers : (command.mapNumbers f).kind? = command.kind? := by
  cases command with
  | move motion => cases motion <;> rfl
  | draw paint figure color => cases figure <;> rfl
  | _ => rfl

theorem numbers_mapNumbers : (command.mapNumbers f).numbers = command.numbers.map f := by
  cases command with
  | move motion => cases motion <;> rfl
  | draw paint figure color => cases figure <;> rfl
  | _ => rfl

theorem colors_mapNumbers : (command.mapNumbers f).colors = command.colors := by
  cases command <;> rfl

variable {command}

theorem fields_mapNumbers (h : command.isInvalid = false) :
    (command.mapNumbers f).fields = command.fields.map (Value.mapNumber f) := by
  cases command with
  | move motion => cases motion <;> rfl
  | draw paint figure color =>
    cases figure with
    | arc x y radius start finish counterclockwise =>
      cases counterclockwise <;> cases color <;> rfl
    | _ => cases color <;> rfl
  | invalid items reason => cases h
  | _ => rfl

theorem dropNulls_mapNumber (values : List (Value α)) :
    dropNulls (values.map (Value.mapNumber f)) = (dropNulls values).map (Value.mapNumber f) := by
  have hnull : Value.isNull ∘ Value.mapNumber f = Value.isNull := funext (Value.isNull_mapNumber f)
  unfold dropNulls
  rw [← List.map_reverse, List.dropWhile_map, hnull, List.map_reverse]

theorem arguments_eq (h : command.isInvalid = false) :
    command.arguments = dropNulls command.fields := by
  cases command with
  | invalid items reason => cases h
  | _ => rfl

/-- Arguments are fields. -/
theorem mem_fields_of_mem_arguments (h : command.isInvalid = false) {v : Value α}
    (hv : v ∈ command.arguments) : v ∈ command.fields := by
  obtain ⟨count, hcount⟩ := exists_nulls command.fields
  rw [arguments_eq h] at hv
  rw [hcount]
  exact List.mem_append_left _ hv

theorem exists_kind? (h : command.isInvalid = false) : ∃ kind, command.kind? = some kind := by
  cases command with
  | move motion => cases motion <;> exact ⟨_, rfl⟩
  | draw paint figure color => cases figure <;> exact ⟨_, rfl⟩
  | invalid items reason => cases h
  | _ => exact ⟨_, rfl⟩

/-- A field that is no null is an argument. -/
theorem mem_arguments_of_mem_fields (h : command.isInvalid = false) {v : Value α}
    (hv : v ∈ command.fields) (hnull : v ≠ .null) : v ∈ command.arguments := by
  obtain ⟨count, hcount⟩ := exists_nulls command.fields
  rw [arguments_eq h]
  rw [hcount] at hv
  refine (List.mem_append.mp hv).resolve_right fun hright => hnull ?_
  exact List.eq_of_mem_replicate hright

theorem isInvalid_of_kind? {kind : Kind} (h : command.kind? = some kind) :
    command.isInvalid = false := by
  cases command with
  | invalid items reason => cases h
  | _ => rfl

/-- The items of a command are its name and its arguments. -/
theorem items_eq (h : command.isInvalid = false) :
    command.items = .text ((command.kind?.map Kind.name).getD "") :: command.arguments := by
  cases command with
  | invalid items reason => cases h
  | _ => rfl

theorem arguments_mapNumbers (h : command.isInvalid = false) :
    (command.mapNumbers f).arguments = command.arguments.map (Value.mapNumber f) := by
  rw [arguments_eq ((isInvalid_mapNumbers f command).trans h), arguments_eq h,
    fields_mapNumbers f h, dropNulls_mapNumber]

/-- **Changed numbers change the items at the numbers only.** -/
theorem items_mapNumbers (h : command.isInvalid = false) :
    (command.mapNumbers f).items = command.items.map (Value.mapNumber f) := by
  rw [items_eq ((isInvalid_mapNumbers f command).trans h), items_eq h, kind?_mapNumbers,
    arguments_mapNumbers f h]
  rfl

/-- Changed numbers change the parameters at the numbers only, if integers stay as they are. -/
theorem parameters_mapNumbers (hint : ∀ n, f (.int n) = .int n) (h : command.isInvalid = false) :
    (command.mapNumbers f).parameters = command.parameters.map (Value.mapNumber f) := by
  have hother := arguments_mapNumbers f h
  cases command with
  | draw paint figure color =>
    cases figure with
    | arc x y radius start finish counterclockwise =>
      cases counterclockwise <;> cases color <;>
        simp [parameters, mapNumbers, Figure.mapNumbers, Value.mapNumber, Value.int, hint]
    | _ => exact hother
  | invalid items reason => cases h
  | _ => exact hother

end Command

/-! ## Plain commands -/

namespace Command

theorem fits_plain {command : Command Float} (h : command.Fits) :
    (command.mapNumbers Number.plain).Fits := by
  refine ⟨fun n hn => ?_, fun style hstyle => h.colors style ?_⟩
  · rw [numbers_mapNumbers] at hn
    obtain ⟨m, hm, rfl⟩ := List.mem_map.mp hn
    exact Number.isFinite_plain (h.numbers m hm)
  · rwa [colors_mapNumbers] at hstyle

variable [Written α]

theorem parameterText_plain (v : Value α) :
    parameterText (v.mapNumber Number.plain) = parameterText v := by
  cases v with
  | number n =>
    show n.plain.plainText = n.plainText
    rw [Number.plainText_eq, Number.plain_plain, Number.plainText_eq]
  | _ => rfl

/-- The line of a command that is not a style is a call. -/
theorem line_call {command : Command α} (h : command.isInvalid = false)
    (hstyle : ∀ paint color, command ≠ .style paint color) :
    command.line = ((command.kind?.map Kind.name).getD "") ++ "(" ++
      String.intercalate ", " (command.parameters.map parameterText) ++ ")" := by
  cases command with
  | style paint color => exact absurd rfl (hstyle paint color)
  | invalid items reason => cases h
  | _ => rfl

/-- **A command and its plainest form have the same line.** -/
theorem line_plain (command : Command α) :
    (command.mapNumbers Number.plain).line = command.line := by
  have hcall (c : Command α) (hc : c.isInvalid = false)
      (hstyle : ∀ paint color, c ≠ .style paint color)
      (hstyle' : ∀ paint color, c.mapNumbers Number.plain ≠ .style paint color) :
      (c.mapNumbers Number.plain).line = c.line := by
    have hc' : (c.mapNumbers Number.plain).isInvalid = false :=
      (isInvalid_mapNumbers _ c).trans hc
    have htext : parameterText ∘ Value.mapNumber (α := α) Number.plain = parameterText :=
      funext parameterText_plain
    rw [line_call hc' hstyle', line_call hc hstyle, kind?_mapNumbers,
      parameters_mapNumbers _ (fun _ => rfl) hc, List.map_map, htext]
  cases command with
  | style paint color => rfl
  | invalid items reason => rfl
  | _ => exact hcall _ rfl (fun _ _ => nofun) (fun _ _ => nofun)

end Command

end CanvasScript
