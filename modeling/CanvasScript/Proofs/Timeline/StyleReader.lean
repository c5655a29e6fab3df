import CanvasScript.Proofs.Text.Trim
import CanvasScript.Timeline.Trace

/-!
# Reading the texts of a trace

A reader takes the texts of a trace (`describe_step`) for a program. It minds only the lines about
styles: those that set one, and those that save or restore both.

* `StyleReader.read` is the reader after a line of text, and `StyleReader.hear` after a statement.
* `StyleReader.read_text`: **the text of a statement says what the statement does to the styles**.
-/

namespace CanvasScript

/-- The styles as one reads them off a trace, with those that are remembered. -/
structure StyleReader where
  style : PerPaint String
  saved : List (PerPaint String)
  deriving DecidableEq, Repr

namespace StyleReader

/-- The reader at the start of a trace. -/
def start (defaults : PerPaint String) : StyleReader := ⟨defaults, []⟩

/-- The reader with both styles remembered. -/
def save (reader : StyleReader) : StyleReader :=
  { reader with saved := reader.style :: reader.saved }

/-- The reader with the styles remembered last. -/
def restore (reader : StyleReader) : StyleReader :=
  match reader.saved with
  | [] => reader
  | style :: rest => ⟨style, rest⟩

/-- The reader with a style set. -/
def set (reader : StyleReader) (paint : Paint) (color : String) : StyleReader :=
  { reader with style := reader.style.set paint color }

/-- What a line that sets a style begins with. -/
def front (paint : Paint) : List Char := (Kind.style paint).name.toList ++ [' ', '=', ' ', '"']

/-- The style that a line sets for a paint. -/
def assigned? (paint : Paint) (line : List Char) : Option String :=
  if (front paint).isPrefixOf line then
    match (line.drop (front paint).length).reverse with
    | ';' :: '"' :: color => some (String.ofList color.reverse)
    | _ => none
  else none

/-- The reader after a line of text. -/
def read (reader : StyleReader) (line : String) : StyleReader :=
  if line = "save();" then reader.save
  else if line = "restore();" then reader.restore
  else
    match assigned? .fill line.toList, assigned? .stroke line.toList with
    | some color, _ => reader.set .fill color
    | none, some color => reader.set .stroke color
    | none, none => reader

/-- The reader after lines of text. -/
def readAll (reader : StyleReader) (lines : List String) : StyleReader := lines.foldl read reader

variable {α : Type}

/-- The reader after a statement. -/
def hear (reader : StyleReader) : Statement α → StyleReader
  | .save => reader.save
  | .restore => reader.restore
  | .style paint color => reader.set paint color
  | _ => reader

theorem readAll_append (reader : StyleReader) (a b : List String) :
    reader.readAll (a ++ b) = (reader.readAll a).readAll b := List.foldl_append

/-! ## The texts of statements -/

theorem assigned?_front (paint : Paint) (color : List Char) :
    assigned? paint (front paint ++ (color ++ ['"', ';'])) = some (String.ofList color) := by
  unfold assigned?
  rw [if_pos (List.isPrefixOf_iff_prefix.mpr (List.prefix_append _ _)), List.drop_left,
    List.reverse_append]
  show some (String.ofList color.reverse.reverse) = some (String.ofList color)
  rw [List.reverse_reverse]

/-- A line that begins with the name of a command and a parenthesis sets no style. -/
theorem assigned?_call (kind : Kind) (paint : Paint) (rest : List Char) :
    assigned? paint (kind.name.toList ++ '(' :: rest) = none := by
  have hfront : (front paint).isPrefixOf (kind.name.toList ++ '(' :: rest) = false := by
    cases kind with
    | style other | rect other | triangle other | arc other =>
      cases paint <;> cases other <;> rfl
    | _ => cases paint <;> rfl
  unfold assigned?
  rw [hfront]
  rfl

/-- A call is of the kind that it names. -/
theorem kind_eq_of_call {kind : Kind} (other : Kind) {s t : List Char}
    (h : kind.name.toList ++ '(' :: s = other.name.toList ++ '(' :: t) : kind = other := by
  have hname : ∀ kind : Kind, ∀ c ∈ kind.name.toList, (c != '(') = true := by
    intro kind
    refine List.all_eq_true.mp ?_
    cases kind with
    | style paint | rect paint | triangle paint | arc paint => cases paint <;> decide
    | _ => decide
  have hstop : ∀ s : List Char, ∀ c ∈ ('(' :: s).head?, (c != '(') = false := by
    rintro s c ⟨⟩
    decide
  have hnames := congrArg (List.takeWhile (· != '(')) h
  rw [Text.takeWhile_append_stop (hname kind) (hstop s),
    Text.takeWhile_append_stop (hname other) (hstop t), String.toList_inj] at hnames
  have hkind := Kind.ofName?_name kind
  rw [hnames, Kind.ofName?_name other] at hkind
  exact (Option.some.inj hkind).symm

/-- A call saves or restores styles only if it has that name. -/
theorem read_call (reader : StyleReader) (kind : Kind) (hsave : kind ≠ .save)
    (hrestore : kind ≠ .restore) {line : String} {rest : List Char}
    (hline : line.toList = kind.name.toList ++ '(' :: rest) : reader.read line = reader := by
  have hsaves : line ≠ "save();" := by
    rintro rfl
    exact hsave (kind_eq_of_call .save (t := [')', ';']) hline.symm)
  have hrestores : line ≠ "restore();" := by
    rintro rfl
    exact hrestore (kind_eq_of_call .restore (t := [')', ';']) hline.symm)
  unfold read
  rw [if_neg hsaves, if_neg hrestores, hline, assigned?_call, assigned?_call]

variable [Written α]

theorem toList_style (paint : Paint) (color : String) :
    (Statement.text (α := α) (.style paint color)).toList =
      front paint ++ (color.toList ++ ['"', ';']) := by
  simp [Statement.text, front, String.toList_append]

theorem toList_call (name : String) (places : Nat) (xs : List α) :
    (Statement.call name places xs).toList =
      name.toList ++ '(' ::
        (commaSeparated (xs.map (Statement.decimal places)) ++ ");").toList := by
  simp [Statement.call, String.toList_append]

theorem read_style (reader : StyleReader) (paint : Paint) (color : String) :
    reader.read (Statement.text (α := α) (.style paint color)) = reader.set paint color := by
  have hline := toList_style (α := α) paint color
  generalize Statement.text (.style paint color : Statement α) = line at hline
  have hsaves : line ≠ "save();" := by
    rintro rfl
    cases paint <;> cases hline
  have hrestores : line ≠ "restore();" := by
    rintro rfl
    cases paint <;> cases hline
  unfold read
  rw [if_neg hsaves, if_neg hrestores, hline]
  cases paint with
  | fill => rw [assigned?_front, String.ofList_toList]
  | stroke =>
    have hfill : assigned? .fill (front .stroke ++ (color.toList ++ ['"', ';'])) = none := rfl
    rw [hfill, assigned?_front, String.ofList_toList]

theorem read_skipped (reader : StyleReader) (reason : String) :
    reader.read (Statement.text (α := α) (.skipped reason)) = reader := by
  have hline : (Statement.text (α := α) (.skipped reason)).toList =
      '/' :: ("/ skipped: " ++ reason).toList := by
    simp [Statement.text, String.toList_append]
  generalize Statement.text (.skipped reason : Statement α) = line at hline
  have hsaves : line ≠ "save();" := by
    rintro rfl
    cases hline
  have hrestores : line ≠ "restore();" := by
    rintro rfl
    cases hline
  unfold read
  rw [if_neg hsaves, if_neg hrestores, hline]
  rfl

theorem read_draw (reader : StyleReader) (paint : Paint) (figure : Figure α) :
    reader.read (Statement.text (.draw paint figure)) = reader := by
  have hline : (Statement.text (.draw paint figure)).toList =
      (Statement.kindOf paint figure).name.toList ++ '(' ::
        (commaSeparated (figure.numbers.map Number.plainText) ++
          (if figure.isCounterclockwise then ",true" else "") ++ ");").toList := by
    simp [Statement.text, String.toList_append]
  refine read_call reader _ ?_ ?_ hline
  · cases figure <;> nofun
  · cases figure <;> nofun

/-- **The text of a statement says what the statement does to the styles.** -/
theorem read_text (reader : StyleReader) (statement : Statement α) :
    reader.read statement.text = reader.hear statement := by
  cases statement with
  | translate x y => exact read_call reader .translate nofun nofun (toList_call ..)
  | rotate angle => exact read_call reader .rotate nofun nofun (toList_call ..)
  | scale x y => exact read_call reader .scale nofun nofun (toList_call ..)
  | shear x y => exact read_call reader .shear nofun nofun (toList_call ..)
  | matrix m => exact read_call reader .matrix nofun nofun (toList_call ..)
  | save => rfl
  | restore => rfl
  | style paint color => exact read_style reader paint color
  | draw paint figure => exact read_draw reader paint figure
  | skipped reason => exact read_skipped reader reason

/-- The texts of statements say what the statements do to the styles. -/
theorem readAll_texts (reader : StyleReader) (statements : List (Statement α)) :
    reader.readAll (statements.map Statement.text) = statements.foldl hear reader := by
  induction statements generalizing reader with
  | nil => rfl
  | cons statement rest ih =>
    show (reader.read statement.text).readAll (rest.map Statement.text) = _
    rw [read_text, ih]
    rfl

end StyleReader

end CanvasScript
