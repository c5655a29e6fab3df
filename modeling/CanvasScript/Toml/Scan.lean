import CanvasScript.Decimal.Limit
import CanvasScript.Text.Hex
import CanvasScript.Value

/-!
# Scanning TOML

The parts of a document that hold no other values: blanks, comments, texts, numbers and dates. A
scanner takes what stands at the start and gives the rest.

They are the parts of the reader of settings files.

* Texts stand between quotes or apostrophes, single or in threes; only the former have escapes.
* `number?` and `date?` take the longest number or date; dates are kept as texts.

Out of scope: dates as values of their own. No setting takes one.
-/

namespace CanvasScript.Toml

open Decimal Text

/-- Why a document is not read. -/
inductive ReadError where
  /-- The document is not in the format. -/
  | malformed
  /-- An integer has more digits than are read. -/
  | tooLong (digits : Nat)
  deriving DecidableEq, Repr

/-- What a scanner gives: a result and the characters behind it. -/
abbrev Step (β : Type) := Except ReadError (β × List Char)

/-- Whether the character is a blank within a line. -/
def isSpace (c : Char) : Bool := c == ' ' || c == '\t'

/-- Whether the character is a blank or ends a line. -/
def isSpaceOrBreak (c : Char) : Bool := isSpace c || c == '\n'

/-- Whether the character is a control other than the tab. -/
def isControl (c : Char) : Bool := (c.toNat < 32 && c != '\t') || c.toNat == 127

/-- The characters from the first that is no blank. -/
def skip (s : List Char) : List Char := s.dropWhile isSpace

/-- What follows a word at the start. -/
def after? (word s : List Char) : Option (List Char) :=
  if word.isPrefixOf s then some (s.drop word.length) else none

/-- The characters behind a comment, if one starts here. -/
def skipComment (s : List Char) : Except ReadError (List Char) :=
  match s with
  | '#' :: rest =>
    if (rest.takeWhile (· != '\n')).any isControl then .error .malformed
    else .ok (rest.dropWhile (· != '\n'))
  | _ => .ok s

/-- The characters behind blanks, line ends and comments. -/
def skipLines : (fuel : Nat) → List Char → Except ReadError (List Char)
  | 0, s => .ok s
  | fuel + 1, s =>
    match s.dropWhile isSpaceOrBreak with
    | '#' :: rest => do skipLines fuel (← skipComment ('#' :: rest))
    | rest => .ok rest

/-- The character of `count` hexadecimal digits. -/
def codePoint? (count : Nat) (s : List Char) : Option (Char × List Char) :=
  if s.length < count then none
  else (hexNumber? (s.take count)).bind fun n =>
    if n.isValidChar then some (Char.ofNat n, s.drop count) else none

/-- The character that a letter stands for behind a backslash. -/
def escaped? : Char → Option Char
  | 'b' => some '\x08'
  | 't' => some '\t'
  | 'n' => some '\n'
  | 'f' => some '\x0c'
  | 'r' => some '\r'
  | '"' => some '"'
  | '\\' => some '\\'
  | _ => none

/-- What a backslash and the characters behind it stand for. Over several lines, a backslash before
a line end takes it away with all blanks that follow. -/
def escape (severalLines : Bool) (s : List Char) : Step (List Char) :=
  match s with
  | 'u' :: rest =>
    match codePoint? 4 rest with
    | some (c, rest) => .ok ([c], rest)
    | none => .error .malformed
  | 'U' :: rest =>
    match codePoint? 8 rest with
    | some (c, rest) => .ok ([c], rest)
    | none => .error .malformed
  | c :: rest =>
    if severalLines && isSpaceOrBreak c then
      match skip (c :: rest) with
      | [] => .ok ([], [])
      | '\n' :: rest => .ok ([], rest.dropWhile isSpaceOrBreak)
      | _ => .error .malformed
    else
      match escaped? c with
      | some c => .ok ([c], rest)
      | none => .error .malformed
  | [] => .error .malformed

/-- A text up to its closing quotes, where `done` holds reversed what came before. -/
def quoted (severalLines : Bool) : (fuel : Nat) → (done : List Char) → List Char → Step (List Char)
  | 0, _, _ => .error .malformed
  | fuel + 1, done, s =>
    match s with
    | [] => .error .malformed
    | '\\' :: rest =>
      match escape severalLines rest with
      | .error e => .error e
      | .ok (cs, rest) => quoted severalLines fuel (cs.reverse ++ done) rest
    | '"' :: rest =>
      if severalLines then
        match rest with
        | '"' :: '"' :: rest => .ok (done.reverse, rest)
        | _ => quoted severalLines fuel ('"' :: done) rest
      else .ok (done.reverse, rest)
    | c :: rest =>
      if isControl c && !(severalLines && c == '\n') then .error .malformed
      else quoted severalLines fuel (c :: done) rest

/-- A text up to an apostrophe. -/
def literal (s : List Char) : Step (List Char) :=
  let text := s.takeWhile (· != '\'')
  match s.dropWhile (· != '\'') with
  | _ :: rest => if text.any isControl then .error .malformed else .ok (text, rest)
  | [] => .error .malformed

/-- A text up to three apostrophes, where `done` holds reversed what came before. -/
def literalLines (done : List Char) : List Char → Step (List Char)
  | '\'' :: '\'' :: '\'' :: rest =>
    if done.any fun c => isControl c && c != '\n' then .error .malformed
    else .ok (done.reverse, rest)
  | c :: rest => literalLines (c :: done) rest
  | [] => .error .malformed

/-- A text of several lines with the quotes that stand directly behind its end: up to two belong to
it. -/
def withClosing (quote : Char) (text rest : List Char) : List Char × List Char :=
  match rest with
  | c :: d :: more =>
    if c == quote then if d == quote then (text ++ [c, d], more) else (text ++ [c], d :: more)
    else (text, rest)
  | [c] => if c == quote then (text ++ [c], []) else (text, rest)
  | [] => (text, rest)

/-- The characters without a line end at the start. -/
def dropBreak : List Char → List Char
  | '\n' :: rest => rest
  | s => s

/-- A text on one line, from its first quote on. -/
def lineText? (s : List Char) : Option (Step (List Char)) :=
  match s with
  | '"' :: rest => some (quoted false (rest.length + 1) [] rest)
  | '\'' :: rest => some (literal rest)
  | _ => none

/-- A text, from its first quote on. -/
def text? (s : List Char) : Option (Step (List Char)) :=
  match s with
  | '"' :: '"' :: '"' :: rest =>
    let rest := dropBreak rest
    some ((quoted true (rest.length + 1) [] rest).map fun (t, rest) => withClosing '"' t rest)
  | '\'' :: '\'' :: '\'' :: rest =>
    some ((literalLines [] (dropBreak rest)).map fun (t, rest) => withClosing '\'' t rest)
  | _ => lineText? s

/-- The digits of a class at the start, single underscores between them left out, and the rest. -/
def digitRun (isDigit : Char → Bool) : (fuel : Nat) → List Char → List Char × List Char
  | 0, s => ([], s)
  | fuel + 1, s =>
    match s with
    | c :: rest =>
      if isDigit c then
        let (digits, after) :=
          match rest with
          | '_' :: d :: more =>
            if isDigit d then digitRun isDigit fuel (d :: more) else ([], rest)
          | _ => digitRun isDigit fuel rest
        (c :: digits, after)
      else ([], s)
    | [] => ([], [])

/-- The digits of a class at the start, single underscores between them left out, and the rest. -/
def digitsOf (isDigit : Char → Bool) (s : List Char) : List Char × List Char :=
  digitRun isDigit s.length s

/-- The value of digits in a base. -/
def valueIn (base : Nat) (s : List Char) : Nat :=
  s.foldl (fun n c => n * base + (hexValue? c).getD 0) 0

/-- The base that a letter behind a zero stands for. -/
def base? : Char → Option Nat
  | 'x' => some 16
  | 'o' => some 8
  | 'b' => some 2
  | _ => none

/-- Whether the character is a digit in a base. -/
def isDigitIn (base : Nat) (c : Char) : Bool :=
  match hexValue? c with
  | some n => n < base
  | none => false

/-- The decimals behind a point, if there is at least one. -/
def decimals (s : List Char) : List Char × List Char :=
  match s with
  | '.' :: rest =>
    if (digitsOf Char.isDigit rest).1.isEmpty then ([], s) else digitsOf Char.isDigit rest
  | _ => ([], s)

/-- The exponent behind its letter, if it has digits. -/
def exponent (s : List Char) : Option Int × List Char :=
  match s with
  | c :: rest =>
    if c == 'e' || c == 'E' then
      let (negative, more) : Bool × List Char :=
        match rest with
        | '-' :: more => (true, more)
        | '+' :: more => (false, more)
        | _ => (false, rest)
      let (digits, after) := digitsOf Char.isDigit more
      if digits.isEmpty then (none, s)
      else (some (if negative then -(value digits : Int) else value digits), after)
    else (none, s)
  | [] => (none, [])

section

variable {α : Type} [Written α]

/-- A decimal number behind its sign. -/
def decimal? (negative : Bool) (s : List Char) : Option (Step (Value α)) :=
  let (whole, rest) :=
    match s with
    | '0' :: rest => (['0'], rest)
    | _ => digitsOf Char.isDigit s
  if whole.isEmpty then none
  else
    let (places, rest) := decimals rest
    let (power, rest) := exponent rest
    if places.isEmpty && power.isNone then
      some (if digitLimit < whole.length then .error (.tooLong whole.length)
        else .ok (.int (if negative then -(value whole : Int) else value whole), rest))
    else
      some (.ok (.real (Written.ofDecimal negative (value (whole ++ places))
        (power.getD 0 - places.length)), rest))

/-- A number in another base, behind its zero. -/
def based? (s : List Char) : Option (Step (Value α)) :=
  match s with
  | '0' :: letter :: rest => do
    let base ← base? letter
    let (digits, rest) := digitsOf (isDigitIn base) rest
    if digits.isEmpty then none else some (.ok (.int (valueIn base digits), rest))
  | _ => none

/-- A number at the start. -/
def number? (s : List Char) : Option (Step (Value α)) :=
  match based? s with
  | some step => some step
  | none =>
    match s with
    | '-' :: rest => decimal? true rest
    | '+' :: rest => decimal? false rest
    | _ => decimal? false s

/-- One of the words for numbers that are not finite, behind its sign. -/
def special? (negative : Bool) (s : List Char) : Option (Step (Value α)) :=
  match s with
  | 'i' :: 'n' :: 'f' :: rest => some (.ok (.real (Written.infinity negative), rest))
  | 'n' :: 'a' :: 'n' :: rest => some (.ok (.real Written.undefined, rest))
  | _ => none

/-- One of the words for numbers that are not finite. -/
def signedSpecial? (s : List Char) : Option (Step (Value α)) :=
  match s with
  | '-' :: rest => special? true rest
  | '+' :: rest => special? false rest
  | _ => special? false s

end

/-- A count of digits at the start with a value within bounds. -/
def field? (count low high : Nat) (s : List Char) : Option (Nat × List Char) :=
  let digits := s.take count
  let n := value digits
  if digits.length = count && digits.all Char.isDigit && low ≤ n && n ≤ high then
    some (n, s.drop count)
  else none

/-- A time of day at the start: what follows it. -/
def time? (s : List Char) : Option (List Char) := do
  let (_, s) ← field? 2 0 23 s
  let (_, s) ← field? 2 0 59 (← after? [':'] s)
  let (_, s) ← field? 2 0 59 (← after? [':'] s)
  match s with
  | '.' :: rest =>
    if (rest.head?.map Char.isDigit).getD false then return rest.dropWhile Char.isDigit
    else return s
  | _ => return s

/-- A distance from universal time at the start: what follows it. -/
def zone? (s : List Char) : Option (List Char) := do
  match s with
  | c :: rest =>
    if c == 'Z' || c == 'z' then return rest
    else if c == '+' || c == '-' then
      let (_, s) ← field? 2 0 23 rest
      let (_, s) ← field? 2 0 59 (← after? [':'] s)
      return s
    else none
  | [] => none

/-- The number of days of a month. -/
def daysIn (year month : Nat) : Nat :=
  if month = 2 then
    if year % 4 = 0 && (year % 100 != 0 || year % 400 = 0) then 29 else 28
  else if month = 4 || month = 6 || month = 9 || month = 11 then 30
  else 31

/-- A date at the start, with a time if one follows: whether there is such a day, and what follows.
-/
def day? (s : List Char) : Option (Bool × List Char) := do
  let (year, s) ← field? 4 0 9999 s
  let (month, s) ← field? 2 1 12 (← after? ['-'] s)
  let (day, s) ← field? 2 1 31 (← after? ['-'] s)
  let isDay := 1 ≤ year && day ≤ daysIn year month
  match s with
  | c :: rest =>
    if c == 'T' || c == 't' || c == ' ' then
      match time? rest with
      | some rest => return (isDay, (zone? rest).getD rest)
      | none => return (isDay, s)
    else return (isDay, s)
  | [] => return (isDay, s)

/-- A date or a time at the start, as a text. -/
def date? {α : Type} (s : List Char) : Option (Step (Value α)) :=
  let upTo (rest : List Char) : Step (Value α) :=
    .ok (.text (String.ofList (s.take (s.length - rest.length))), rest)
  match day? s with
  | some (isDay, rest) => some (if isDay then upTo rest else .error .malformed)
  | none => (time? s).map upTo

end CanvasScript.Toml
