/-!
# Paths

A path is a start and the names that lead on from there. Names that stay in place and repeated
separators are dropped when a path is read, so they do not show in its text.

Model of the paths that are given to `main`, of their texts and of their suffixes.

* `Path.suffix` is the end of the last name from its last point on, if there is something on both
  sides of that point.
* `Path.extension` looks past the points with which the last name starts, and may be a lone point.

Out of scope: drives and backslashes. A name may be any text without a separator.
-/

namespace CanvasScript

/-- A path to a file or a folder. -/
structure Path where
  /-- `/` or `//` where the path starts at the top of all folders, and empty otherwise. -/
  root : String
  names : List String
  deriving DecidableEq, Repr

namespace Path

/-- The character between names. -/
def separator : Char := '/'

/-- The name of the folder above. -/
def upward : String := ".."

/-- The texts between separators. -/
def segments : List Char → List (List Char)
  | [] => [[]]
  | c :: rest =>
    if c = separator then [] :: segments rest
    else
      match segments rest with
      | [] => [[c]]
      | first :: others => (c :: first) :: others

/-- Where a path with some text starts: two separators are kept, and more count as one. -/
def rootOf : List Char → String
  | '/' :: '/' :: '/' :: _ => "/"
  | '/' :: '/' :: _ => "//"
  | '/' :: _ => "/"
  | _ => ""

/-- The path of a text. -/
def ofText (text : String) : Path where
  root := rootOf text.toList
  names := ((segments text.toList).filter fun s => s ≠ [] && s ≠ ['.']).map String.ofList

/-- The text of a path. -/
def text (path : Path) : String :=
  if path.root.isEmpty && path.names.isEmpty then "."
  else path.root ++ String.intercalate "/" path.names

/-- A name below a path. -/
def child (path : Path) (name : String) : Path := { path with names := path.names ++ [name] }

/-- The last name of a path. -/
def lastName (path : Path) : List Char := ((path.names.getLast?).getD "").toList

/-- What stands before the last point of a name, and after it. -/
def splitAtPoint (name : List Char) : Option (List Char × List Char) :=
  if '.' ∈ name then
    let after := (name.reverse.takeWhile (· ≠ '.')).reverse
    some (name.take (name.length - after.length - 1), after)
  else none

/-- The last name from its last point on, where there is something before and after the point. -/
def suffix (path : Path) : String :=
  match splitAtPoint path.lastName with
  | some (before, after) =>
    if before.isEmpty || after.isEmpty then "" else String.ofList ('.' :: after)
  | none => ""

/-- The last name from its last point on, unless only points stand before it. Letters count as
small ones. -/
def extension (path : Path) : String :=
  match splitAtPoint path.lastName with
  | some (before, after) =>
    if before.all (· = '.') then "" else String.ofList (('.' :: after).map Char.toLower)
  | none => ""

example : (ofText "a//./b/").text = "a/b" ∧ (ofText "").text = "." := by decide +kernel
example : (ofText "a/b.c.txt").suffix = ".txt" ∧ (ofText ".txt").suffix = "" := by decide +kernel
example : (ofText "a.").suffix = "" ∧ (ofText "a.").extension = "." := by decide +kernel

end Path

end CanvasScript
