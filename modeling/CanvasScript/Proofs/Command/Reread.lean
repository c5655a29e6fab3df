import CanvasScript.Proofs.Binary64.Range
import CanvasScript.Proofs.Binary64.Shortest
import CanvasScript.Proofs.Color.Characters
import CanvasScript.Proofs.Command.Plain
import CanvasScript.Proofs.Text.Trim

/-!
# What lines are read as

A line tells `parse_command_line` less than the command that it was written from: a number is read
as the scalar that its text denotes, a style without the blanks around it, and an arc that has a
colour has a direction.

* `Number.reread`, `Value.reread` and `Command.reread` are what comes back.
* `Number.toRat?_reread`: **a number comes back as an equal double**.
* `Rgba.ofStyle_bareStyle`: **a style comes back as the same colour**.
* `Command.fits_reread` and `Command.parameters_reread`: a command that fits comes back as one, with
  the parameters that come back.
-/

namespace CanvasScript

/-! ## Numbers -/

namespace Binary64

/-- A large integer is read as the double that it is converted to. -/
theorem ofDecimal_integer {n : Int} (h : holds n = true) (hlarge : ¬ n.natAbs < 2 ^ 53) :
    ofDecimal (decide (n < 0)) n.natAbs 0 = ofInt n := by
  have hpos : 0 < n.natAbs := by omega
  have hone : (1 : Rat) ≤ n.natAbs := by exact_mod_cast hpos
  have hlow : (10 : Rat) ^ (-400 : Int) ≤ n.natAbs * 10 ^ (0 : Int) := by
    rw [zpow_zero, mul_one]
    exact (zpow_le_one_of_nonpos₀ (by norm_num) (by decide)).trans hone
  have hhigh : (n.natAbs : Rat) * 10 ^ (0 : Int) < 10 ^ (400 : Int) := by
    rw [zpow_zero, mul_one]
    calc (n.natAbs : Rat)
        < 2 ^ (1024 : Int) := by exact_mod_cast lt_of_holds h
      _ < 10 ^ (400 : Int) := two_zpow_lt (e := 971) le_rfl
  have hofInt : ofInt n = ofRat n := if_neg hlarge
  rw [ofDecimal_eq _ 0 hpos hlow hhigh, hofInt, zpow_zero, mul_one, Nat.cast_natAbs, Int.cast_abs]
  unfold ofRat
  by_cases hneg : n < 0
  · have hcast : (n : Rat) < 0 := by exact_mod_cast hneg
    rw [if_pos hcast, decide_eq_true hneg, abs_of_neg hcast]
  · have hcast : ¬ (n : Rat) < 0 := by exact_mod_cast hneg
    rw [if_neg hcast, decide_eq_false hneg, abs_of_nonneg (not_lt.mp hcast)]

end Binary64

namespace Number

/-- The number that the text of a number is read as: the plainest form of its scalar. -/
def reread {α : Type} [Scalar α] (n : Number α) : Number α := (Number.real n.toScalar).plain

/-- The text of an integer is read as the integer comes back. -/
theorem exists_reread_int {n : Int} (h : Binary64.holds n = true) :
    ∃ numeral, Decimal.Numeral.read? (Decimal.integer n) = some numeral ∧
      (Number.real (numeral.toScalar : Float)).plain = (Number.int n).reread := by
  by_cases hsmall : n.natAbs < 2 ^ 53
  · have hexact := Binary64.toRat?_ofInt hsmall.le
    obtain ⟨numeral, hread, hvalue⟩ := Binary64.read?_integer hexact
    refine ⟨numeral, hread, ?_⟩
    unfold reread
    rw [plain_of_some (Binary64.whole?_eq_some.mpr hvalue)]
    exact (plain_of_some (Binary64.whole?_eq_some.mpr hexact)).symm
  · refine ⟨_, Decimal.read?_integer n, ?_⟩
    exact congrArg (fun x => (Number.real x).plain) (Binary64.ofDecimal_integer h hsmall)

/-- An integer that a double equals comes back as it is. -/
theorem reread_int {x : Float} {n : Int} (h : Binary64.toRat? x = .ok n) :
    (Number.int n : Number Float).reread = .int n :=
  plain_of_some (Binary64.whole?_eq_some.mpr (Binary64.toRat?_ofInt_of_eq h))

/-- A finite number denotes a finite double. -/
theorem exists_toRat?_toScalar {n : Number Float} (h : n.isFinite = .ok true) :
    ∃ r, Binary64.toRat? n.toScalar = .ok r :=
  Binary64.isFinite_iff.mp (Binary64.staysFinite.toScalar h)

/-- **A number comes back as an equal double.** -/
theorem toRat?_reread {n : Number Float} {r : Rat} (h : Binary64.toRat? n.toScalar = .ok r) :
    Binary64.toRat? n.reread.toScalar = .ok r := by
  unfold reread
  cases hwhole : Scalar.whole? n.toScalar with
  | none =>
    rw [plain_of_none hwhole]
    exact h
  | some k =>
    have hk := Binary64.whole?_eq_some.mp hwhole
    rw [plain_of_some hwhole]
    exact (Binary64.toRat?_ofInt_of_eq hk).trans (hk.symm.trans h)

/-- A finite number comes back as one. -/
theorem isFinite_reread {n : Number Float} (h : n.isFinite = .ok true) :
    n.reread.isFinite = .ok true := by
  refine isFinite_plain (n := .real n.toScalar) ?_
  exact congrArg Except.ok (Binary64.staysFinite.toScalar h)

end Number

/-! ## Styles -/

namespace Rgba

open Text

/-- A style without the blanks around it. -/
def bareStyle (style : String) : String := String.ofList (trim style.toList)

/-- Blanks around a style do not count. -/
theorem essence_bareStyle (style : String) : essence (bareStyle style) = essence style := by
  unfold essence bareStyle
  rw [String.toList_ofList]
  exact congrArg (fun s => (s.filter (· != ' ')).map small) (trimBy_eq_self (bare_trimBy _ _))

/-- **A style comes back as the same colour.** -/
theorem ofStyle_bareStyle {style : String} {color : Rgba} (h : ofStyle style = .ok color) :
    ofStyle (bareStyle style) = .ok color := by
  unfold ofStyle at h ⊢
  rw [essence_bareStyle]
  simp only at h ⊢
  split at h
  · cases h
  · rename_i hempty
    rw [if_neg hempty]
    split at h
    · rename_i hword
      rwa [if_pos hword]
    · rename_i hword
      rw [if_neg hword]
      split at h
      · exact h
      · split at h
        · exact h
        · split at h
          · exact h
          · cases h

end Rgba

/-! ## Values and commands -/

variable {α : Type} [Scalar α]

/-- The value that the text of a value is read as. -/
def Value.reread : Value α → Value α
  | .number n => .number n.reread
  | .text s => .text (Rgba.bareStyle s)
  | v => v

@[simp] theorem Value.reread_number (n : Number α) :
    (Value.number n).reread = .number n.reread := rfl

@[simp] theorem Value.reread_text (s : String) :
    (Value.text s : Value α).reread = .text (Rgba.bareStyle s) := rfl

/-- The figure with its direction told, if it is an arc. -/
def Figure.directed : Figure α → Figure α
  | .arc x y radius start finish counterclockwise =>
    .arc x y radius start finish (some (counterclockwise.getD false))
  | figure => figure

namespace Command

/-- An arc with a colour of its own tells its direction. -/
def IsDirected : Command α → Prop
  | .draw _ (.arc _ _ _ _ _ counterclockwise) (some _) => counterclockwise.isSome
  | _ => True

/-- The command that the line of a command is read as. -/
def reread : Command α → Command α
  | .move motion => .move (motion.mapNumbers Number.reread)
  | .style paint color => .style paint (Rgba.bareStyle color)
  | .draw paint figure none => .draw paint (figure.mapNumbers Number.reread) none
  | .draw paint figure (some color) =>
    .draw paint (figure.mapNumbers Number.reread).directed (some (Rgba.bareStyle color))
  | command => command

variable (command : Command α)

theorem isInvalid_reread : command.reread.isInvalid = command.isInvalid := by
  cases command with
  | draw paint figure color => cases color <;> rfl
  | _ => rfl

theorem kind?_reread : command.reread.kind? = command.kind? := by
  cases command with
  | move motion => cases motion <;> rfl
  | draw paint figure color => cases color <;> cases figure <;> rfl
  | _ => rfl

theorem numbers_reread : command.reread.numbers = command.numbers.map Number.reread := by
  cases command with
  | move motion => cases motion <;> rfl
  | draw paint figure color => cases color <;> cases figure <;> rfl
  | _ => rfl

theorem colors_reread : command.reread.colors = command.colors.map Rgba.bareStyle := by
  cases command with
  | draw paint figure color => cases color <;> rfl
  | _ => rfl

/-- What comes back has a direction if it is an arc with a colour. -/
theorem isDirected_reread : command.reread.IsDirected := by
  cases command with
  | draw paint figure color => cases color <;> cases figure <;> trivial
  | _ => trivial

end Command

/-- **A command that fits comes back as one.** -/
theorem Command.fits_reread {command : Command Float} (h : command.Fits) : command.reread.Fits := by
  refine ⟨fun n hn => ?_, fun style hstyle => ?_⟩
  · rw [numbers_reread] at hn
    obtain ⟨m, hm, rfl⟩ := List.mem_map.mp hn
    exact Number.isFinite_reread (h.numbers m hm)
  · rw [colors_reread] at hstyle
    obtain ⟨written, hwritten, rfl⟩ := List.mem_map.mp hstyle
    obtain ⟨color, hcolor⟩ := isOk_iff.mp (h.colors written hwritten)
    have hbare := Rgba.ofStyle_bareStyle hcolor
    unfold Rgba.isStyle
    rw [hbare]
    rfl

/-- **The parameters of a command come back one by one.** -/
theorem Command.parameters_reread {command : Command Float} (h : command.isInvalid = false) :
    command.reread.parameters = command.parameters.map Value.reread := by
  have hzero : (Value.int 0 : Value Float).reread = .int 0 :=
    congrArg Value.number (Number.reread_int Binary64.toRat?_zero)
  have hone : (Value.int 1 : Value Float).reread = .int 1 :=
    congrArg Value.number (Number.reread_int Binary64.toRat?_one)
  cases command with
  | move motion => cases motion <;> rfl
  | draw paint figure color =>
    cases figure with
    | arc x y radius start finish counterclockwise =>
      rcases counterclockwise with - | ⟨- | -⟩ <;> cases color <;>
        simp [reread, parameters, Figure.mapNumbers, Figure.directed, hzero, hone]
    | _ => cases color <;> rfl
  | invalid items reason => cases h
  | _ => rfl

end CanvasScript
