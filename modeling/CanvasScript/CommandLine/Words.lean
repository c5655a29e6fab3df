import CanvasScript.Text.DecimalDigit

/-!
# The words of a command line

A word of a command line is a plain one, the mark after which all words are plain, or an option. The
name of a long option may be cut short as long as it fits one option only, and a value may follow it
after an equals sign. A word that looks like a negative number, or that has a blank in it, is plain
unless it is an option.

Model of the way in which the words of a command line are sorted before any option takes its value.

* `Word.ofText` tells what a single word is.
* `wordsOf` classifies the words of a command line; it fails where a shortened name fits two
  options.

Out of scope: options with several values and words that stand for files, of which there are none.
-/

namespace CanvasScript.CommandLine

open Text

/-- What a word of a command line is. -/
inductive Word (ι : Type) where
  | plain
  /-- The mark `--`, after which all words are plain. -/
  | mark
  /-- An option, with the value that the word holds itself; one that is attached follows the letter
  of the option without an equals sign. -/
  | option (option : ι) (value : Option String) (isAttached : Bool)
  | unknown
  deriving DecidableEq, Repr

/-- The options that a command line may have, each with its name. -/
abbrev Options (ι : Type) := List (List Char × ι)

/-- A word up to its first equals sign, and what follows the sign. -/
def splitAtEquals (word : List Char) : List Char × Option String :=
  match word.dropWhile (· ≠ '=') with
  | _ :: value => (word.takeWhile (· ≠ '='), some (String.ofList value))
  | [] => (word, none)

/-- Whether digits with at most one point before the last of them stand here. -/
def isUnsignedNumber (word : List Char) : Bool :=
  match word.dropWhile isDecimalDigit with
  | [] => !word.isEmpty
  | '.' :: places => !places.isEmpty && places.all isDecimalDigit
  | _ => false

/-- Whether a word looks like a negative number. -/
def isNegativeNumber : List Char → Bool
  | '-' :: rest => isUnsignedNumber rest
  | _ => false

namespace Word

variable {ι : Type}

/-- The options whose name a word cuts short, as words. -/
def shortened (options : Options ι) (word : List Char) : List (Word ι) :=
  match word with
  | '-' :: '-' :: _ =>
    let (name, value) := splitAtEquals word
    (options.filter fun (n, _) => name.isPrefixOf n).map fun (_, o) => .option o value false
  | '-' :: letter :: rest =>
    (options.filter fun (n, _) => n = ['-', letter]).map fun (_, o) =>
      .option o (some (String.ofList rest)) true
  | _ => []

/-- The option that a word names in full, as a word. -/
def named? (options : Options ι) (word : List Char) : Option (Word ι) :=
  let (name, value) := splitAtEquals word
  match options.lookup word with
  | some o => some (.option o none false)
  | none =>
    if value.isSome then
      (options.lookup name).map fun o => .option o value false
    else none

/-- What a word is; none where a shortened name fits several options. -/
def ofText (options : Options ι) (text : List Char) : Option (Word ι) :=
  match text with
  | '-' :: _ :: _ =>
    match named? options text with
    | some word => some word
    | none =>
      match shortened options text with
      | [] => some (if isNegativeNumber text || ' ' ∈ text then .plain else .unknown)
      | [word] => some word
      | _ => none
  | _ => some .plain

end Word

/-- Whether an option without a value is asked for when some text is attached to its `letter`: the
text is taken as further letters, and one that names no option ends it. -/
def allowsAttached (letter : Char) : List Char → Bool
  | [] => true
  | c :: rest => if c = letter then allowsAttached letter rest else c ≠ '=' && c ≠ '-'

/-- What the words of a command line are; none where a shortened name fits several options. -/
def wordsOf {ι : Type} (options : Options ι) :
    List String → Option (List (Word ι × String))
  | [] => some []
  | "--" :: rest => some ((.mark, "--") :: rest.map fun text => (.plain, text))
  | text :: rest => do
    return (← Word.ofText options text.toList, text) :: (← wordsOf options rest)

end CanvasScript.CommandLine
