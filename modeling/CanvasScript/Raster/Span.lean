/-!
# Spans

A row of cells is selected by spans `[start, stop)`. Spans that `add` puts together are ascending
and leave a gap between any two, so no cell belongs to two of them.

They stand for a row of the array of flags of a mask.

* `Row.contains_add`: adding a span selects its cells, and nothing else changes.
-/

namespace CanvasScript

/-- The cells from `start` up to but not including `stop`. -/
structure Span where
  start : Nat
  stop : Nat
  deriving DecidableEq, Repr

/-- Whether a cell belongs to a span. -/
def Span.contains (span : Span) (x : Nat) : Bool :=
  decide (span.start ≤ x) && decide (x < span.stop)

/-- Selected cells of a row. -/
abbrev Row := List Span

namespace Row

/-- Whether a cell is selected. -/
def contains (row : Row) (x : Nat) : Bool := row.any (·.contains x)

/-- The row with the cells of a span selected, where spans that meet become one. -/
def add (span : Span) : Row → Row
  | [] => [span]
  | first :: rest =>
    if span.stop < first.start then span :: first :: rest
    else if first.stop < span.start then first :: add span rest
    else add ⟨min span.start first.start, max span.stop first.stop⟩ rest

/-- The row with the cells from `start` up to `stop` selected, if there are any. -/
def select (start stop : Nat) (row : Row) : Row :=
  if start < stop then add ⟨start, stop⟩ row else row

theorem contains_cons (span : Span) (row : Row) (x : Nat) :
    contains (span :: row) x = (span.contains x || contains row x) := rfl

theorem contains_join {a b : Span} (hab : b.start ≤ a.stop) (hba : a.start ≤ b.stop) (x : Nat) :
    Span.contains ⟨min a.start b.start, max a.stop b.stop⟩ x = (a.contains x || b.contains x) := by
  rw [Bool.eq_iff_iff]
  simp only [Span.contains, Bool.or_eq_true, Bool.and_eq_true, decide_eq_true_eq]
  omega

/-- Adding a span selects its cells, and nothing else changes. -/
theorem contains_add (span : Span) (row : Row) (x : Nat) :
    contains (add span row) x = (span.contains x || contains row x) := by
  induction row generalizing span with
  | nil => simp [add, contains]
  | cons first rest ih =>
    unfold add
    split
    · simp [contains_cons]
    · split
      · rw [contains_cons, contains_cons, ih]
        cases first.contains x <;> cases span.contains x <;> simp
      · rw [ih, contains_join (by omega) (by omega), contains_cons, Bool.or_assoc]

/-- Selecting cells selects them, and nothing else changes. -/
theorem contains_select (start stop : Nat) (row : Row) (x : Nat) :
    contains (select start stop row) x =
      (decide (start ≤ x) && decide (x < stop) || contains row x) := by
  unfold select
  split
  · exact contains_add _ _ _
  · have : (decide (start ≤ x) && decide (x < stop)) = false := by
      simp only [Bool.and_eq_false_iff, decide_eq_false_iff_not]
      omega
    simp [this]

end Row

end CanvasScript
