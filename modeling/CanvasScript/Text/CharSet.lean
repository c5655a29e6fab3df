/-!
# Sets of characters

A set of characters is an ascending list of bounds: a character belongs to the set when an odd
number of bounds is at most its code point. So `#[a, b, c, d]` holds the code points of `[a, b)` and
`[c, d)`.
-/

namespace CanvasScript.Text

/-- A set of characters, by the ascending bounds of its runs. -/
structure CharSet where
  bounds : Array Nat

namespace CharSet

/-- How many bounds are at most `code`, given that those before `low` are and those from `high` on
are not. -/
def rank (bounds : Array Nat) (code low high : Nat) : Nat :=
  if h : low < high then
    let middle := (low + high) / 2
    if bounds.getD middle 0 ≤ code then rank bounds code (middle + 1) high
    else rank bounds code low middle
  else low
termination_by high - low
decreasing_by all_goals omega

/-- Whether the character belongs to the set. -/
def contains (set : CharSet) (c : Char) : Bool :=
  rank set.bounds c.toNat 0 set.bounds.size % 2 == 1

end CharSet

end CanvasScript.Text
