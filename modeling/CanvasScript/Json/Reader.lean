import CanvasScript.Decimal.Limit
import CanvasScript.Text.Hex
import CanvasScript.Value

/-!
# Reading JSON

A text holds one value with blanks around it. Numbers with neither a point nor an exponent are
integers; the words `NaN`, `Infinity` and `-Infinity` are numbers too. A field that is written twice
keeps its first place and its last value.

Model of the reader of program files.

* `Json.read` is the value of a text.
* The recursion is bounded by a count of characters: each step consumes at least one.

Out of scope: a bound on the depth of values, and half of a pair of units on its own, which is read
as the replacement character, since texts hold whole characters here.
-/

namespace CanvasScript.Json

open Decimal Text

/-- Why a text is not read. -/
inductive ReadError where
  /-- The text is not a JSON value. -/
  | malformed
  /-- An integer has more digits than are read. -/
  | tooLong (digits : Nat)
  deriving DecidableEq, Repr

/-- What a reader gives: a result and the characters behind it. -/
abbrev Step (β : Type) := Except ReadError (β × List Char)

/-- Whether a blank may stand between the parts of a value. -/
def isSpace (c : Char) : Bool := c == ' ' || c == '\t' || c == '\n' || c == '\r'

/-- The characters from the first that is no blank. -/
def skip (s : List Char) : List Char := s.dropWhile isSpace

/-- The sixteen-bit unit that four hexadecimal digits write. -/
def unit? (s : List Char) : Option (Nat × List Char) :=
  if s.length < 4 then none else (hexNumber? (s.take 4)).map (·, s.drop 4)

/-- The character of a unit and what follows it: two units may make up one character. -/
def joinUnits (unit : Nat) (rest : List Char) : Char × List Char :=
  if 0xd800 ≤ unit ∧ unit < 0xdc00 then
    match rest with
    | '\\' :: 'u' :: more =>
      match unit? (more.take 4) with
      | some (low, _) =>
        if 0xdc00 ≤ low ∧ low < 0xe000 then
          (Char.ofNat (0x10000 + (unit - 0xd800) * 1024 + (low - 0xdc00)), more.drop 4)
        else ('\ufffd', rest)
      | none => ('\ufffd', rest)
    | _ => ('\ufffd', rest)
  else if 0xdc00 ≤ unit ∧ unit < 0xe000 then ('\ufffd', rest)
  else (Char.ofNat unit, rest)

/-- The character that a letter stands for behind a backslash. -/
def escaped? : Char → Option Char
  | '"' => some '"'
  | '\\' => some '\\'
  | '/' => some '/'
  | 'b' => some '\x08'
  | 'f' => some '\x0c'
  | 'n' => some '\n'
  | 'r' => some '\r'
  | 't' => some '\t'
  | _ => none

/-- The rest of a text up to its closing quote, where `done` holds reversed what came before. -/
def readText : (fuel : Nat) → (done : List Char) → List Char → Step String
  | 0, _, _ => .error .malformed
  | fuel + 1, done, s =>
    match s with
    | '"' :: rest => .ok (String.ofList done.reverse, rest)
    | '\\' :: 'u' :: rest =>
      match unit? rest with
      | some (unit, rest) =>
        let (c, rest) := joinUnits unit rest
        readText fuel (c :: done) rest
      | none => .error .malformed
    | '\\' :: c :: rest =>
      match escaped? c with
      | some c => readText fuel (c :: done) rest
      | none => .error .malformed
    | c :: rest => if c.toNat < 0x20 then .error .malformed else readText fuel (c :: done) rest
    | [] => .error .malformed

/-- The digits at the start and what follows them. -/
def leadingDigits (s : List Char) : List Char × List Char :=
  (s.takeWhile Char.isDigit, s.dropWhile Char.isDigit)

/-- The decimals behind a point, if there is at least one. -/
def decimals (s : List Char) : List Char × List Char :=
  match s with
  | '.' :: rest => if (leadingDigits rest).1.isEmpty then ([], s) else leadingDigits rest
  | _ => ([], s)

/-- The exponent behind its letter, if it has digits. -/
def exponent (s : List Char) : Option Int × List Char :=
  match s with
  | c :: rest =>
    if c == 'e' || c == 'E' then
      let (negative, more) : Bool × List Char :=
        match rest with
        | '-' :: more => (true, more)
        | '+' :: more => (false, more)
        | _ => (false, rest)
      let (digits, after) := leadingDigits more
      if digits.isEmpty then (none, s)
      else (some (if negative then -(value digits : Int) else value digits), after)
    else (none, s)
  | [] => (none, [])

section

variable {α : Type} [Written α]

/-- A number at the start, behind its sign. -/
def readNumber (negative : Bool) (s : List Char) : Step (Value α) :=
  let (whole, rest) :=
    match s with
    | '0' :: rest => (['0'], rest)
    | _ => leadingDigits s
  if whole.isEmpty then .error .malformed
  else
    let (places, rest) := decimals rest
    let (power, rest) := exponent rest
    if places.isEmpty && power.isNone then
      if digitLimit < whole.length then .error (.tooLong whole.length)
      else .ok (.int (if negative then -(value whole : Int) else value whole), rest)
    else
      .ok (.real (Written.ofDecimal negative (value (whole ++ places))
        (power.getD 0 - places.length)), rest)

/-- A word or a number at the start. -/
def readWord (s : List Char) : Step (Value α) :=
  match s with
  | 'n' :: 'u' :: 'l' :: 'l' :: rest => .ok (.null, rest)
  | 't' :: 'r' :: 'u' :: 'e' :: rest => .ok (.flag true, rest)
  | 'f' :: 'a' :: 'l' :: 's' :: 'e' :: rest => .ok (.flag false, rest)
  | 'N' :: 'a' :: 'N' :: rest => .ok (.real Written.undefined, rest)
  | 'I' :: 'n' :: 'f' :: 'i' :: 'n' :: 'i' :: 't' :: 'y' :: rest =>
    .ok (.real (Written.infinity false), rest)
  | '-' :: 'I' :: 'n' :: 'f' :: 'i' :: 'n' :: 'i' :: 't' :: 'y' :: rest =>
    .ok (.real (Written.infinity true), rest)
  | '-' :: rest => readNumber true rest
  | _ => readNumber false s

mutual

/-- A value at the start. -/
def readValue : (fuel : Nat) → List Char → Step (Value α)
  | 0, _ => .error .malformed
  | fuel + 1, s =>
    match s with
    | '"' :: rest => (readText (rest.length + 1) [] rest).map fun (t, rest) => (.text t, rest)
    | '[' :: rest =>
      match skip rest with
      | ']' :: rest => .ok (.array [], rest)
      | rest => (readItems fuel [] rest).map fun (items, rest) => (.array items, rest)
    | '\x7b' :: rest =>
      match skip rest with
      | '\x7d' :: rest => .ok (.object [], rest)
      | rest => (readFields fuel [] rest).map fun (fields, rest) => (.object fields, rest)
    | _ => readWord s

/-- The items of an array up to its end, where `done` holds reversed those before. -/
def readItems : (fuel : Nat) → (done : List (Value α)) → List Char → Step (List (Value α))
  | 0, _, _ => .error .malformed
  | fuel + 1, done, s =>
    match readValue fuel s with
    | .error e => .error e
    | .ok (v, rest) =>
      match skip rest with
      | ',' :: rest => readItems fuel (v :: done) (skip rest)
      | ']' :: rest => .ok ((v :: done).reverse, rest)
      | _ => .error .malformed

/-- The fields of an object up to its end, added to those before. -/
def readFields : (fuel : Nat) → (done : Fields α) → List Char → Step (Fields α)
  | 0, _, _ => .error .malformed
  | fuel + 1, done, s =>
    match s with
    | '"' :: rest =>
      match readText (rest.length + 1) [] rest with
      | .error e => .error e
      | .ok (name, rest) =>
        match skip rest with
        | ':' :: rest =>
          match readValue fuel (skip rest) with
          | .error e => .error e
          | .ok (v, rest) =>
            match skip rest with
            | ',' :: rest => readFields fuel (done.put name v) (skip rest)
            | '\x7d' :: rest => .ok (done.put name v, rest)
            | _ => .error .malformed
        | _ => .error .malformed
    | _ => .error .malformed

end

/-- The value that a text holds. -/
def read (s : String) : Except ReadError (Value α) :=
  let s := skip s.toList
  match readValue (s.length + 1) s with
  | .error e => .error e
  | .ok (v, rest) => if (skip rest).isEmpty then .ok v else .error .malformed

end

end CanvasScript.Json
