/-!
# Blanks

The characters that surround a token without being part of it: the white space of the character
standard together with the four information separators.

They are what lines, parameters and styles are stripped of.

* `trim` removes blanks at both ends, and nothing else.
-/

namespace CanvasScript.Text

/-- Whether the character is a blank. -/
def isBlank (c : Char) : Bool :=
  let n := c.toNat
  (9 ≤ n && n ≤ 13) || (28 ≤ n && n ≤ 32) || n == 0x85 || n == 0xa0 || n == 0x1680 ||
    (0x2000 ≤ n && n ≤ 0x200a) || n == 0x2028 || n == 0x2029 || n == 0x202f || n == 0x205f ||
    n == 0x3000

/-- Whether the character is one of the six blanks of the ASCII range that numerals admit. -/
def isAsciiBlank (c : Char) : Bool :=
  let n := c.toNat
  (9 ≤ n && n ≤ 13) || n == 32

/-- The characters without those of a class at the end. -/
def trimRight (blank : Char → Bool) (s : List Char) : List Char :=
  (s.reverse.dropWhile blank).reverse

/-- The characters without those of a class at both ends. -/
def trimBy (blank : Char → Bool) (s : List Char) : List Char :=
  trimRight blank (s.dropWhile blank)

/-- The characters without blanks at both ends. -/
def trim (s : List Char) : List Char :=
  trimBy isBlank s

example : trim [' ', 'a', ' ', 'b', '\t'] = ['a', ' ', 'b'] := by decide

end CanvasScript.Text
