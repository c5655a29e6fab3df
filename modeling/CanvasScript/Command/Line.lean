import CanvasScript.Command.Wire
import CanvasScript.Text.Lines
import CanvasScript.Text.Word

/-!
# Commands in lines of text

An author writes a command on a line: a call `name(parameter, …)`, or an assignment of a style,
`fillStyle = "red"`. A semicolon may follow. Lines that are blank or start with `//` or `#` hold
nothing.

Model of `parse_command_line`, `parse_program_text`, `format_command_line` and
`format_program_text`, and of `_split_params`, `_parse_param`, `_unquote` and `_format_param` behind
them. The two patterns of a line are matched by hand (`assigned?` and `call?`).

* `splitParameters` cuts the parameters of a call at the commas that stand neither in quotes nor in
  parentheses.
* `Line.read?` is the instruction of a line, checked in full.
* `readLines` reads a program; every line that fails adds an error with its number.
* `Command.line` writes a command as a line.

Out of scope: the lines of commands that were not decoded.
-/

namespace CanvasScript

open Text

namespace Line

/-- Whether the character is one of the two quotes. -/
def isQuote (c : Char) : Bool := c == '"' || c == '\''

/-- Cuts at the commas outside quotes and parentheses. The scan is inside `quote` if there is one,
and inside `depth` parentheses; `started` is the current piece reversed. -/
def pieces (quote : Option Char) (depth : Int) (started : List Char) :
    List Char → List (List Char)
  | [] => [started.reverse]
  | c :: rest =>
    match quote with
    | some q => pieces (if c == q then none else some q) depth (c :: started) rest
    | none =>
      if isQuote c then pieces (some c) depth (c :: started) rest
      else if c == '(' then pieces none (depth + 1) (c :: started) rest
      else if c == ')' then pieces none (depth - 1) (c :: started) rest
      else if c == ',' && depth == 0 then started.reverse :: pieces none 0 [] rest
      else pieces none depth (c :: started) rest

/-- The parameters of a call, without the blanks around them; none when there is only blank. -/
def splitParameters (s : List Char) : List (List Char) :=
  match (pieces none 0 [] s).map trim with
  | [[]] => []
  | tokens => tokens

/-- A token without blanks around it, nor a quote at either end. -/
def unquote (token : List Char) : List Char :=
  let s := trim token
  let s := if (s.head?.map isQuote).getD false then s.tail else s
  trim (if (s.getLast?.map isQuote).getD false then s.dropLast else s)

/-- The characters without a semicolon at the end. -/
def dropSemicolon (s : List Char) : List Char :=
  if s.getLast? == some ';' then s.dropLast else s

/-- The value of an assignment to a style: all that follows the equals sign on a single line. -/
def assigned? (name s : List Char) : Option (List Char) :=
  if name.isPrefixOf s then
    match (s.drop name.length).dropWhile isBlank with
    | '=' :: rest =>
      let value := rest.dropWhile isBlank
      if value.isEmpty || value.contains '\n' then none
      else if value == [';'] then some value
      else some (dropSemicolon value)
    | _ => none
  else none

/-- The name and the parameters of a call on a single line. -/
def call? (s : List Char) : Option (List Char × List Char) :=
  let name := s.takeWhile isWord
  match (s.dropWhile isWord).dropWhile isBlank with
  | '(' :: rest =>
    let rest := trimRight isBlank (dropSemicolon rest)
    let inner := rest.dropLast
    if name.isEmpty || rest.getLast? != some ')' || inner.contains '\n' then none
    else some (name, inner)
  | _ => none

variable {α : Type} [Written α]

/-- The number of a numeral: an integer if it equals one and has neither a point nor an exponent. -/
def numberOf (token : List Char) (x : α) : Number α :=
  match Scalar.whole? x with
  | some n => if token.any fun c => c == '.' || c.toLower == 'e' then .real x else .int n
  | none => .real x

/-- Whether a name is that of a style. -/
def isStyleName (name : String) : Bool :=
  name == (Kind.style .fill).name || name == (Kind.style .stroke).name

/-- The value of a parameter. -/
def parameter (name : String) (token : List Char) : Except (Fault α) (Value α) :=
  if isStyleName name || (token.head?.map isQuote).getD false then
    .ok (.text (String.ofList (unquote token)))
  else if token = ['t', 'r', 'u', 'e'] then .ok (.flag true)
  else if token = ['f', 'a', 'l', 's', 'e'] then .ok (.flag false)
  else
    match Decimal.Numeral.read? token with
    | some numeral => .ok (.number (numberOf token numeral.toScalar))
    | none => .error (.notNumeral name (String.ofList token))

/-- The parameters of an arc with its direction, written as `0` or `1`, made a flag. -/
def directed (kind : Kind) : List (Value α) → Except (Fault α) (List (Value α))
  | x :: y :: radius :: start :: finish :: .number n :: rest =>
    if (Value.number n).equalsInt 0 then
      .ok (x :: y :: radius :: start :: finish :: .flag false :: rest)
    else if (Value.number n).equalsInt 1 then
      .ok (x :: y :: radius :: start :: finish :: .flag true :: rest)
    else .error (.notDirection kind n)
  | values => .ok values

/-- The arguments that the parameters of a call stand for. -/
def arguments (name : String) (values : List (Value α)) : Except (Fault α) (List (Value α)) :=
  match Kind.ofName? name with
  | some (.arc paint) => directed (.arc paint) values
  | _ => .ok values

/-- The items of the instruction on a line that is neither blank nor a comment, still unchecked. -/
def items (s : List Char) : Except (Fault α) (List (Value α)) :=
  let style (paint : Paint) (value : List Char) : List (Value α) :=
    [.text (Kind.style paint).name, .text (String.ofList (unquote value))]
  match assigned? (Kind.style .fill).name.toList s,
    assigned? (Kind.style .stroke).name.toList s with
  | some value, _ => .ok (style .fill value)
  | none, some value => .ok (style .stroke value)
  | none, none =>
    match call? s with
    | none => .error (.unreadable (String.ofList s))
    | some (name, inner) => do
      let name := String.ofList name
      let values ← (splitParameters inner).mapM (parameter name)
      return .text name :: (← arguments name values)

/-- Whether a line holds nothing: it is blank or a comment. -/
def isSilent (s : List Char) : Bool :=
  s.isEmpty || ['/', '/'].isPrefixOf s || ['#'].isPrefixOf s

/-- The items of the instruction on a line, if it holds one. -/
def read? (line : List Char) : Except (Refusal α) (Option (List (Value α))) :=
  let s := trim line
  if isSilent s then .ok none
  else
    match items s with
    | .error fault => .error (.fault fault)
    | .ok items => do
      let _ ← Command.decode (.row items)
      return some items

/-- The instructions and the errors of the lines from a number on. -/
def readFrom (number : Nat) :
    List (List Char) → Except ArithmeticFault (List (List (Value α)) × List (CommandError α))
  | [] => .ok ([], [])
  | line :: rest =>
    match read? line with
    | .error (.arithmetic fault) => .error fault
    | .error (.fault fault) => do
      let (rows, errors) ← readFrom (number + 1) rest
      return (rows, ⟨some number, fault⟩ :: errors)
    | .ok row => do
      let (rows, errors) ← readFrom (number + 1) rest
      return (row.toList ++ rows, errors)

end Line

/-- The instructions of a program in lines; any error refuses the program with all of them. -/
def readLines {α : Type} [Written α] (text : String) :
    Except (ProgramError α) (List (List (Value α))) :=
  match Line.readFrom 1 (lines text.toList) with
  | .error fault => .error (.arithmetic fault)
  | .ok (rows, []) => .ok rows
  | .ok (_, errors) => .error (.invalid errors)

namespace Command

variable {α : Type} [Written α]

/-- The parameters of a command in a line: an arc writes its direction as `0` or `1`. -/
def parameters : Command α → List (Value α)
  | .draw _ (.arc x y radius start finish counterclockwise) color =>
    [x, y, radius, start, finish].map .number ++
      if counterclockwise.isNone && color.isNone then []
      else .int (if counterclockwise.getD false then 1 else 0) :: color.toList.map .text
  | command => command.arguments

/-- A parameter as a line writes it. -/
def parameterText : Value α → String
  | .text s => "\"" ++ s ++ "\""
  | .flag b => if b then "true" else "false"
  | .number n => n.plainText
  | v => v.shown

/-- The line of a command. -/
def line (command : Command α) : String :=
  match command with
  | .invalid _ reason => "// invalid: " ++ reason
  | .style paint color => (Kind.style paint).name ++ " = \"" ++ color ++ "\""
  | command =>
    ((command.kind?.map Kind.name).getD "") ++ "(" ++
      String.intercalate ", " (command.parameters.map parameterText) ++ ")"

/-- The lines of a program. -/
def textLines (commands : List (Command α)) : String :=
  String.intercalate "\n" (commands.map line)

end Command

end CanvasScript
