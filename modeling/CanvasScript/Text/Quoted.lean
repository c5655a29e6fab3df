import CanvasScript.Text.Hex
import CanvasScript.Text.Printable

/-!
# Quoted text

A text is shown between single quotes, or between double quotes when it holds a single quote and no
double one. The quote in use and the backslash are written behind a backslash; tabs and the two
common line breaks by letter; other unprintable characters by the digits of their code point.

It is how a text stands in a message, for `{text!r}`.
-/

namespace CanvasScript.Text

/-- The quote that a text is shown between. -/
def quoteFor (s : List Char) : Char :=
  if s.contains '\'' && !s.contains '"' then '"' else '\''

/-- One character of a text shown between `quote`s. -/
def quotedChar (quote c : Char) : List Char :=
  if c == quote || c == '\\' then ['\\', c]
  else if c == '\n' then ['\\', 'n']
  else if c == '\r' then ['\\', 'r']
  else if c == '\t' then ['\\', 't']
  else if isPrintable c then [c]
  else if c.toNat < 0x100 then '\\' :: 'x' :: hexDigits 2 c.toNat []
  else if c.toNat < 0x10000 then '\\' :: 'u' :: hexDigits 4 c.toNat []
  else '\\' :: 'U' :: hexDigits 8 c.toNat []

/-- The text between quotes, with escapes. -/
def quoted (s : String) : String :=
  let quote := quoteFor s.toList
  String.ofList (quote :: s.toList.flatMap (quotedChar quote) ++ [quote])

end CanvasScript.Text
