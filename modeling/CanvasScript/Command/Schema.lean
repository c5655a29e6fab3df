import CanvasScript.Command

/-!
# The schema of commands

Every kind of command has a name and a row of slots for its arguments. Optional slots stand at the
end of a row.

Model of `COMMAND_SCHEMAS`, with `ArgSpec` as `Slot`, and of `command_args`, which is
`Command.arguments`. The order of `Kind.all` is the one in which a message lists the names.

* `Kind.slots` is the row of a kind.
* `Arguments slots` are arguments that fit a row: their types follow from the slots, so a command is
  made of them without further checks (`Kind.command`).
* `Command.fields` lists all arguments of a command, null where an optional one is omitted, and
  `Command.arguments` leaves out the nulls at the end.
-/

namespace CanvasScript

/-- What an argument may be. -/
inductive SlotKind where
  | number
  | color
  | flag
  deriving DecidableEq, Repr

/-- The place of an argument. -/
structure Slot where
  name : String
  kind : SlotKind
  isRequired : Bool := true
  deriving DecidableEq, Repr

/-- The arguments of a kind. -/
def SlotKind.Content (α : Type) : SlotKind → Type
  | .number => Number α
  | .color => String
  | .flag => Bool

/-- The arguments that fit a slot; an optional one may be omitted. -/
def Slot.Content (α : Type) (slot : Slot) : Type :=
  match slot.isRequired with
  | true => slot.kind.Content α
  | false => Option (slot.kind.Content α)

/-- Arguments that fit a row of slots. -/
def Arguments (α : Type) : List Slot → Type
  | [] => Unit
  | slot :: rest => slot.Content α × Arguments α rest

/-- The kinds of commands that a program may hold. -/
inductive Kind where
  | translate
  | rotate
  | scale
  | shear
  | matrix
  | save
  | restore
  | style (paint : Paint)
  | rect (paint : Paint)
  | triangle (paint : Paint)
  | arc (paint : Paint)
  deriving DecidableEq, Repr

namespace Kind

/-- All kinds, in the order in which they are listed. -/
def all : List Kind :=
  [.translate, .rotate, .scale, .shear, .matrix, .save, .restore, .style .fill, .style .stroke,
    .rect .fill, .rect .stroke, .triangle .fill, .triangle .stroke, .arc .fill, .arc .stroke]

/-- The name of a kind. -/
def name : Kind → String
  | .translate => "translate"
  | .rotate => "rotate"
  | .scale => "scale"
  | .shear => "shear"
  | .matrix => "transform"
  | .save => "save"
  | .restore => "restore"
  | .style .fill => "fillStyle"
  | .style .stroke => "strokeStyle"
  | .rect .fill => "fillRect"
  | .rect .stroke => "strokeRect"
  | .triangle .fill => "fillTriangle"
  | .triangle .stroke => "strokeTriangle"
  | .arc .fill => "fillArc"
  | .arc .stroke => "strokeArc"

/-- The kind of a name. -/
def ofName? (name : String) : Option Kind :=
  all.find? (·.name == name)

theorem ofName?_name (kind : Kind) : ofName? kind.name = some kind := by
  cases kind with
  | style paint | rect paint | triangle paint | arc paint => cases paint <;> decide
  | _ => decide

theorem name_of_ofName? {name : String} {kind : Kind} (h : ofName? name = some kind) :
    kind.name = name := by
  simpa using List.find?_some h

/-- A number that must be given. -/
def number (name : String) : Slot := { name, kind := .number }

/-- A colour that may be left out. -/
def colorSlot : Slot := { name := "color", kind := .color, isRequired := false }

/-- The slots of a kind in order. -/
def slots : Kind → List Slot
  | .translate => [number "tx", number "ty"]
  | .rotate => [number "angle"]
  | .scale => [number "sx", number "sy"]
  | .shear => [number "shx", number "shy"]
  | .matrix => [number "a", number "b", number "c", number "d", number "e", number "f"]
  | .save => []
  | .restore => []
  | .style _ => [{ name := "color", kind := .color }]
  | .rect _ => [number "x", number "y", number "w", number "h", colorSlot]
  | .triangle _ =>
    [number "x1", number "y1", number "x2", number "y2", number "x3", number "y3", colorSlot]
  | .arc _ =>
    [number "x", number "y", number "radius", number "startAngle", number "endAngle",
      { name := "ccw", kind := .flag, isRequired := false }, colorSlot]

variable {α : Type}

/-- The command of a kind with arguments that fit it. -/
def command : (kind : Kind) → Arguments α kind.slots → Command α
  | .translate, (x, y, ()) => .move (.translate x y)
  | .rotate, (angle, ()) => .move (.rotate angle)
  | .scale, (x, y, ()) => .move (.scale x y)
  | .shear, (x, y, ()) => .move (.shear x y)
  | .matrix, (a, b, c, d, e, f, ()) => .move (.matrix a b c d e f)
  | .save, () => .save
  | .restore, () => .restore
  | .style paint, (color, ()) => .style paint color
  | .rect paint, (x, y, width, height, color, ()) => .draw paint (.rect x y width height) color
  | .triangle paint, (x₁, y₁, x₂, y₂, x₃, y₃, color, ()) =>
    .draw paint (.triangle x₁ y₁ x₂ y₂ x₃ y₃) color
  | .arc paint, (x, y, radius, start, finish, counterclockwise, color, ()) =>
    .draw paint (.arc x y radius start finish counterclockwise) color

end Kind

namespace Command

variable {α : Type}

/-- The kind of a command; a refused instruction has none. -/
def kind? : Command α → Option Kind
  | .move (.translate _ _) => some .translate
  | .move (.rotate _) => some .rotate
  | .move (.scale _ _) => some .scale
  | .move (.shear _ _) => some .shear
  | .move (.matrix _ _ _ _ _ _) => some .matrix
  | .save => some .save
  | .restore => some .restore
  | .style paint _ => some (.style paint)
  | .draw paint (.rect _ _ _ _) _ => some (.rect paint)
  | .draw paint (.triangle _ _ _ _ _ _) _ => some (.triangle paint)
  | .draw paint (.arc _ _ _ _ _ _) _ => some (.arc paint)
  | .invalid _ _ => none

end Command

namespace Motion

variable {α : Type}

/-- The numbers of a motion in order. -/
def numbers : Motion α → List (Number α)
  | .translate x y => [x, y]
  | .rotate angle => [angle]
  | .scale x y => [x, y]
  | .shear x y => [x, y]
  | .matrix a b c d e f => [a, b, c, d, e, f]

end Motion

namespace Figure

variable {α : Type}

/-- The numbers of a figure in order. -/
def numbers : Figure α → List (Number α)
  | .rect x y width height => [x, y, width, height]
  | .triangle x₁ y₁ x₂ y₂ x₃ y₃ => [x₁, y₁, x₂, y₂, x₃, y₃]
  | .arc x y radius start finish _ => [x, y, radius, start, finish]

/-- The arguments of a figure, null where the direction of an arc is omitted. -/
def fields : Figure α → List (Value α)
  | .arc x y radius start finish counterclockwise =>
    [.number x, .number y, .number radius, .number start, .number finish,
      counterclockwise.elim .null .flag]
  | figure => figure.numbers.map .number

end Figure

namespace Command

variable {α : Type}

/-- All arguments of a command in order, null where an optional one is omitted. -/
def fields : Command α → List (Value α)
  | .move motion => motion.numbers.map .number
  | .save => []
  | .restore => []
  | .style _ color => [.text color]
  | .draw _ figure color => figure.fields ++ [color.elim .null .text]
  | .invalid items _ => items.drop 1

/-- Values without the nulls at the end. -/
def dropNulls (values : List (Value α)) : List (Value α) :=
  (values.reverse.dropWhile Value.isNull).reverse

/-- The arguments of a command without the omitted ones at the end. A refused instruction keeps all
that stands behind its first item. -/
def arguments : Command α → List (Value α)
  | .invalid items _ => items.drop 1
  | command => dropNulls command.fields

/-- The instruction of a command: its name and its arguments. -/
def items : Command α → List (Value α)
  | .invalid items _ => items
  | command => .text ((command.kind?.map Kind.name).getD "") :: command.arguments

end Command

end CanvasScript
