import CanvasScript.Color.Names
import CanvasScript.Decimal.Limit
import CanvasScript.Text.Blank
import CanvasScript.Text.DecimalDigit
import CanvasScript.Text.Hex
import CanvasScript.Text.Quoted

/-!
# Colour styles

A style is a text that denotes a colour: a name, `transparent`, three, six or eight hexadecimal
digits behind a hash, or channels in `rgb(…)` and `rgba(…)`. Blanks around a style and spaces inside
it do not count, nor does the case of letters. Channels above `255` count as `255`, and an alpha
above `1` as `1`.

Model of `parse_color` and `is_valid_color`. The patterns of functions and of hexadecimal digits are
matched by hand; channels may be written in the digits of any script. `essence` is the style as it
is matched, and small letters are those that the patterns and the table of names compare with.

* `ofStyle` is the colour of a style, or why there is none.

Out of scope: values that are no texts. Who reads a style from a value refuses them
(`SlotKind.content?`, `Settings.style`, `Timeline.styleOf?`).
-/

namespace CanvasScript

/-- Why a style denotes no colour. -/
inductive ColorError where
  /-- A value of this kind is no style. -/
  | notText (typeName : String)
  /-- The style is blank. -/
  | blank
  /-- The style has none of the forms. -/
  | unknown (style : String)
  /-- A channel has more digits than are read. -/
  | tooLong (digits : Nat)
  deriving DecidableEq, Repr

/-- The text that reports the fault. -/
def ColorError.message : ColorError → String
  | .notText typeName => "color must be a string, got " ++ typeName
  | .blank => "color must be non-empty"
  | .unknown style => "not a valid color: " ++ Text.quoted style
  | .tooLong digits => Decimal.limitMessage digits

namespace Rgba

open Text

/-- The small form of a letter. The sign for kelvin has the letter `k` as its small form. -/
def small (c : Char) : Char := if c == '\u212a' then 'k' else c.toLower

/-- The characters of a style that count. -/
def essence (style : String) : List Char :=
  ((trim style.toList).filter (· != ' ')).map small

/-- The parts of a text between separators. -/
def parts (separator : Char) : List Char → List (List Char)
  | [] => [[]]
  | c :: rest =>
    if c == separator then [] :: parts separator rest
    else
      match parts separator rest with
      | part :: more => (c :: part) :: more
      | [] => [[c]]

/-- What stands between the parentheses of a function, in parts. -/
def arguments? (function s : List Char) : Option (List (List Char)) :=
  if (function ++ ['(']).isPrefixOf s && s.getLast? == some ')' then
    some (parts ',' (s.drop (function.length + 1)).dropLast)
  else none

/-- Whether the characters are decimal digits, and at least one. -/
def isDigits (s : List Char) : Bool := !s.isEmpty && s.all isDecimalDigit

/-- The natural that digits of any script write. -/
def digitsValue (s : List Char) : Nat :=
  s.foldl (fun n c => n * 10 + (digitValue? c).getD 0) 0

/-- The channel that digits write. -/
def channel (s : List Char) : Except ColorError Int :=
  if Decimal.digitLimit < s.length then .error (.tooLong s.length)
  else .ok (clampChannel (digitsValue s))

/-- The channel of the fraction `digits / 10 ^ places`, which is rounded to a double first. -/
def alphaChannel (digits places : Nat) : Int :=
  if Rounding.pow10 places ≤ digits then 255
  else
    let fraction := Rounding.nearest 53 (mkRat digits (Rounding.pow10 places))
    Rounding.halfEven (Rounding.nearest 53 (fraction * 255))

/-- The alpha channel that a fraction writes: digits with at most one point among them. -/
def alpha? (s : List Char) : Option Int :=
  let whole := s.takeWhile isDecimalDigit
  match s.dropWhile isDecimalDigit with
  | [] => if whole.isEmpty then none else some (alphaChannel (digitsValue whole) 0)
  | c :: decimals =>
    if c == '.' && decimals.all isDecimalDigit && !(whole ++ decimals).isEmpty then
      some (alphaChannel (digitsValue (whole ++ decimals)) decimals.length)
    else none

/-- The colour of channels in a function. -/
def ofFunction? (s : List Char) : Option (Except ColorError Rgba) :=
  match arguments? ['r', 'g', 'b'] s, arguments? ['r', 'g', 'b', 'a'] s with
  | some [red, green, blue], _ =>
    if isDigits red && isDigits green && isDigits blue then
      some do return solid (← channel red) (← channel green) (← channel blue)
    else none
  | _, some [red, green, blue, fraction] =>
    if isDigits red && isDigits green && isDigits blue then
      (alpha? fraction).map fun alpha => do
        return ⟨← channel red, ← channel green, ← channel blue, alpha⟩
    else none
  | _, _ => none

/-- The colour of hexadecimal digits behind a hash. -/
def ofHash? (s : List Char) : Option Rgba :=
  match s with
  | '#' :: digits =>
    match digits.mapM hexValue? with
    | some [r, g, b] => some (solid (r * 17 : Nat) (g * 17 : Nat) (b * 17 : Nat))
    | some [r, r', g, g', b, b'] =>
      some (solid (r * 16 + r' : Nat) (g * 16 + g' : Nat) (b * 16 + b' : Nat))
    | some [r, r', g, g', b, b', a, a'] =>
      some ⟨(r * 16 + r' : Nat), (g * 16 + g' : Nat), (b * 16 + b' : Nat), (a * 16 + a' : Nat)⟩
    | _ => none
  | _ => none

/-- The colour of a style. -/
def ofStyle (style : String) : Except ColorError Rgba :=
  let s := essence style
  let word := String.ofList s
  if s.isEmpty then .error .blank
  else if word = "transparent" then .ok clear
  else
    match named? word with
    | some color => .ok color
    | none =>
      match ofFunction? s with
      | some result => result
      | none =>
        match ofHash? s with
        | some color => .ok color
        | none => .error (.unknown style)

/-- Whether a style denotes a colour. -/
def isStyle (style : String) : Bool := (ofStyle style).isOk

end Rgba

end CanvasScript
