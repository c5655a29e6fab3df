/-!
# Lines

A text is cut at every line break: the usual ones (a carriage return with a line feed behind it is a
single break), the vertical and form feeds, the information separators, the next-line control and
the line and paragraph separators. A break at the very end opens no further line.

These are the lines of `parse_program_text`.
-/

namespace CanvasScript.Text

/-- Whether the character ends a line. -/
def isLineBreak (c : Char) : Bool :=
  let n := c.toNat
  (10 ≤ n && n ≤ 13) || (28 ≤ n && n ≤ 30) || n == 0x85 || n == 0x2028 || n == 0x2029

/-- The lines of the rest of a text, where the current line has begun with `started` reversed. -/
def linesFrom (started : List Char) : List Char → List (List Char)
  | [] => if started.isEmpty then [] else [started.reverse]
  | '\r' :: '\n' :: rest => started.reverse :: linesFrom [] rest
  | c :: rest =>
    if isLineBreak c then started.reverse :: linesFrom [] rest else linesFrom (c :: started) rest

/-- The lines of a text, without their breaks. -/
def lines (s : List Char) : List (List Char) :=
  linesFrom [] s

example : lines ['a', '\r', '\n', '\n', 'b', '\r'] = [['a'], [], ['b']] := by decide

end CanvasScript.Text
