import CanvasScript.Decimal.Digits
import CanvasScript.Scalar
import CanvasScript.Text.Blank
import CanvasScript.Text.DecimalDigit

/-!
# Numerals

The written numbers that free text may hold: an optional sign, then digits with an optional point
and exponent, or one of the words `inf`, `infinity` and `nan` in any case. Blanks may surround a
numeral, digits may be of any script, and single underscores may stand between digits.

Model of the conversion of a text to a number in `_parse_param`, in `toScalar?` and in the options
of a command line.

* `Numeral.read?` reads a numeral, and `toScalar` is the scalar nearest to it.
* `readInteger?` reads a numeral that is an integer.
-/

namespace CanvasScript.Decimal

open Text

/-- A number as a numeral writes it. -/
inductive Numeral where
  /-- `± digits · 10 ^ exponent`. -/
  | finite (negative : Bool) (digits : Nat) (exponent : Int)
  | infinite (negative : Bool)
  | undefined
  deriving DecidableEq, Repr

namespace Numeral

/-- A digit of any script as the usual one and a blank as a space; other foreign characters become
one that no numeral holds. -/
def plain (c : Char) : Char :=
  if c.toNat < 127 then c
  else if isBlank c then ' '
  else match digitValue? c with
    | some d => digit d
    | none => '?'

/-- Takes out underscores, each of which needs a digit on either side. -/
def joined (previous : Char) : List Char → Option (List Char)
  | [] => if previous == '_' then none else some []
  | c :: rest =>
    if c == '_' then
      if previous.isDigit then joined c rest else none
    else if previous == '_' && !c.isDigit then none
    else (joined c rest).map (c :: ·)

/-- The characters of a numeral, made plain and without blanks around it or underscores inside. -/
def characters (s : List Char) : Option (List Char) :=
  joined '?' (trimBy isAsciiBlank (s.map plain))

/-- A sign and what follows it. -/
def signed : List Char → Bool × List Char
  | '-' :: rest => (true, rest)
  | '+' :: rest => (false, rest)
  | s => (false, s)

/-- The exponent that the whole rest of a numeral writes. -/
def exponent? : List Char → Option Int
  | [] => some 0
  | c :: rest =>
    if c.toLower == 'e' then
      let (negative, s) := signed rest
      if s.isEmpty || !s.all Char.isDigit then none
      else some (if negative then -(value s : Int) else value s)
    else none

/-- An unsigned numeral of digits. -/
def unsigned (negative : Bool) (s : List Char) : Option Numeral :=
  let whole := s.takeWhile Char.isDigit
  let rest := s.dropWhile Char.isDigit
  let (decimals, rest) :=
    match rest with
    | '.' :: rest => (rest.takeWhile Char.isDigit, rest.dropWhile Char.isDigit)
    | rest => ([], rest)
  if whole.isEmpty && decimals.isEmpty then none
  else (exponent? rest).map fun e =>
    .finite negative (value (whole ++ decimals)) (e - decimals.length)

/-- Reads a numeral. -/
def read? (s : List Char) : Option Numeral :=
  (characters s).bind fun s =>
    let (negative, s) := signed s
    let word := s.map Char.toLower
    if word = ['i', 'n', 'f'] ∨ word = ['i', 'n', 'f', 'i', 'n', 'i', 't', 'y'] then
      some (.infinite negative)
    else if word = ['n', 'a', 'n'] then some .undefined
    else unsigned negative s

/-- The scalar nearest to the numeral. -/
def toScalar {α : Type} [Written α] : Numeral → α
  | .finite negative digits exponent => Written.ofDecimal negative digits exponent
  | .infinite negative => Written.infinity negative
  | .undefined => Written.undefined

end Numeral

/-- Reads a numeral that is an integer. -/
def readInteger? (s : List Char) : Option Int :=
  (Numeral.characters s).bind fun s =>
    let (negative, s) := Numeral.signed s
    if s.isEmpty || !s.all Char.isDigit then none
    else some (if negative then -(value s : Int) else value s)

example : Numeral.read? [' ', '1', '_', '0', '.', '5', 'E', '2'] = some (.finite false 105 1) := by
  decide
example : Numeral.read? ['1', '_', '_', '0'] = none ∧ Numeral.read? ['.'] = none := by decide

end CanvasScript.Decimal
