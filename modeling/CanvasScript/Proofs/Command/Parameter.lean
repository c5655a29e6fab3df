import CanvasScript.Proofs.Command.Reread
import CanvasScript.Proofs.Command.Split
import CanvasScript.Proofs.Text.Lines

/-!
# Parameters of lines

A parameter is written (`_format_param`) so that its value comes back (`_parse_param`): a double
that equals an integer is written as that integer, and a style stands between quotes.

* `Value.Writable` tells the values that can be written in a line.
* `parameter_parameterText`: **a writable value comes back from its text**.
-/

namespace CanvasScript

/-! ## Writable values -/

/-- A value that can be written in a line: a finite number, a style that does not break the line, or
a flag. -/
def Value.Writable : Value Float → Prop
  | .number n => n.isFinite = .ok true
  | .text s => Text.Unbroken s.toList ∧ Rgba.isStyle s = true
  | .flag _ => True
  | _ => False

namespace Line

open Decimal

/-- The text of an integer has neither a point nor an exponent. -/
theorem any_integer (n : Int) :
    ((integer n).any fun c => c == '.' || c.toLower == 'e') = false := by
  have hdigit (c : Char) (hc : c.isDigit = true) : (c == '.' || c.toLower == 'e') = false := by
    rw [Bool.or_eq_false_iff, beq_eq_false_iff_ne, beq_eq_false_iff_ne]
    refine ⟨?_, fun he => ?_⟩
    · rintro rfl
      exact absurd hc (by decide)
    · rw [(Numeral.isDigit_eq_false_of_toLower he).1] at hc
      cases hc
  have hdigits : ∀ c ∈ digits n.natAbs, ¬ (c == '.' || c.toLower == 'e') = true := fun c hc =>
    Bool.eq_false_iff.mp (hdigit c (isDigit_of_mem_digits c hc))
  rw [List.any_eq_false]
  unfold integer
  split
  · exact List.forall_mem_cons.mpr ⟨by decide, hdigits⟩
  · exact hdigits

section

variable {name : String}

/-- A written number is read as its numeral. -/
theorem parameter_number (hname : isStyleName name = false) {token : List Char}
    (hwritten : IsWritten token) {numeral : Numeral} (h : Numeral.read? token = some numeral) :
    parameter (α := Float) name token = .ok (.number (numberOf token numeral.toScalar)) := by
  have hquote : ∀ c ∈ writtenCharacters, isQuote c = false :=
    List.all_iff_forall_prop.mp (by decide)
  have hhead : (token.head?.map isQuote).getD false = false := by
    cases token with
    | nil => rfl
    | cons c rest => exact hquote c (hwritten c (List.mem_cons_self ..))
  have hword (first : Char) (rest : List Char) (hfirst : first ∉ writtenCharacters) :
      token ≠ first :: rest := by
    rintro rfl
    exact hfirst (hwritten first (List.mem_cons_self ..))
  unfold parameter
  rw [hname, hhead, if_neg (by decide), if_neg (hword _ _ (by decide)),
    if_neg (hword _ _ (by decide)), h]

/-- An integer within the doubles is read as it comes back. -/
theorem parameter_integer (hname : isStyleName name = false) {n : Int}
    (h : Binary64.holds n = true) :
    parameter (α := Float) name (integer n) = .ok (.number (Number.int n).reread) := by
  obtain ⟨numeral, hread, hvalue⟩ := Number.exists_reread_int h
  have hnumber (x : Float) : numberOf (integer n) x = (Number.real x).plain := by
    unfold numberOf Number.plain
    rw [any_integer]
    rfl
  rw [parameter_number hname (isWritten_integer n).1 hread, hnumber, hvalue]

theorem parameter_shortest (hname : isStyleName name = false) {x : Float} {r : Rat}
    (h : Binary64.toRat? x = .ok r) (hwhole : Scalar.whole? x = none) :
    parameter (α := Float) name (Binary64.shortest x).toList = .ok (.number (.real x)) := by
  obtain ⟨numeral, hread, hvalue⟩ := Binary64.read?_shortest h
  rw [parameter_number hname (Binary64.isWritten_shortest h).1 hread, hvalue]
  unfold numberOf
  rw [hwhole]

/-- Spaces and visible characters do not break the line. -/
theorem unbroken_of_visible {s : List Char} (h : ∀ c ∈ s, c = ' ' ∨ Rgba.IsVisible c) :
    Text.Unbroken s := by
  intro c hc
  rcases h c hc with rfl | hc
  · decide
  · exact Text.isLineBreak_eq_false hc.1

theorem unbroken_quoted {s : List Char} (h : Text.Unbroken s) :
    Text.Unbroken ('"' :: s ++ ['"']) :=
  (h.cons (by decide)).append (by decide)

/-- What stands between quotes is the text without the blanks around it. -/
theorem unquote_quoted (s : List Char) : unquote ('"' :: s ++ ['"']) = Text.trim s := by
  have htrim : Text.trim ('"' :: s ++ ['"']) = '"' :: s ++ ['"'] :=
    Text.trimBy_eq_self (Text.bare_cons_concat (by decide) (by decide) s)
  have hlast : ((s ++ ['"']).getLast?.map isQuote).getD false = true := by
    rw [List.getLast?_concat]
    rfl
  unfold unquote
  simp only [htrim]
  rw [if_pos (show ((('"' :: s ++ ['"']).head?).map isQuote).getD false = true from rfl)]
  rw [List.cons_append, List.tail_cons, if_pos hlast, List.dropLast_concat]

/-- A finite number comes back from its text. -/
theorem parameter_plainText {n : Number Float} (hname : isStyleName name = false)
    (h : n.isFinite = .ok true) :
    (IsWritten n.plainText.toList ∧ n.plainText.toList ≠ []) ∧
      parameter name n.plainText.toList = .ok (.number n.reread) := by
  have hinteger {k : Int} (hk : Binary64.holds k = true) :
      (IsWritten (integerText k).toList ∧ (integerText k).toList ≠ []) ∧
        parameter (α := Float) name (integerText k).toList =
          .ok (.number (Number.int k).reread) := by
    rw [integerText, String.toList_ofList]
    exact ⟨isWritten_integer k, parameter_integer hname hk⟩
  cases n with
  | int k => exact hinteger (Number.holds_of_isFinite h)
  | real x =>
    rw [Number.plainText_eq]
    obtain ⟨r, hr⟩ := Number.exists_toRat?_toScalar h
    cases hwhole : Scalar.whole? x with
    | some k =>
      have hk := Binary64.whole?_eq_some.mp hwhole
      have hreread : (Number.real x).reread = (Number.int k).reread :=
        (Number.plain_of_some hwhole).trans (Number.reread_int hk).symm
      rw [Number.plain_of_some hwhole, hreread]
      exact hinteger (Binary64.holds_of_toRat? hk)
    | none =>
      have hreread : (Number.real x).reread = .real x := Number.plain_of_none hwhole
      rw [Number.plain_of_none hwhole, hreread]
      exact ⟨Binary64.isWritten_shortest hr, parameter_shortest hname hr hwhole⟩

theorem unbroken_of_isWritten {token : List Char} (h : IsWritten token) : Text.Unbroken token := by
  have hbreak : ∀ c ∈ writtenCharacters, Text.isLineBreak c = false :=
    List.all_iff_forall_prop.mp (by decide)
  exact fun c hc => hbreak c (h c hc)

/-- The words of the flags are read as the flags. -/
theorem parameter_flag (hname : isStyleName name = false) (b : Bool) :
    Closed (Command.parameterText (Value.flag (α := Float) b)).toList ∧
      Text.Unbroken (Command.parameterText (Value.flag (α := Float) b)).toList ∧
      parameter name (Command.parameterText (Value.flag (α := Float) b)).toList =
        .ok (Value.flag (α := Float) b) := by
  have hclosed {word : List Char} (hne : word ≠ [])
      (hword : word.all fun c => !Text.isBlank c && next .outside c == some .outside) :
      Closed word := by
    have hall : ∀ c ∈ word, Text.isBlank c = false ∧ next .outside c = some .outside := by
      simpa using hword
    exact ⟨Text.bare_of_all fun c hc => (hall c hc).1, hne,
      scan_of_forall fun c hc => (hall c hc).2⟩
  cases b with
  | true =>
    refine ⟨hclosed (by decide) (by decide), by decide, ?_⟩
    unfold parameter
    rw [hname]
    rfl
  | false =>
    refine ⟨hclosed (by decide) (by decide), by decide, ?_⟩
    unfold parameter
    rw [hname]
    rfl

/-- A style comes back from between its quotes. -/
theorem parameter_text (hname : isStyleName name = false) {s : String}
    (h : (Value.text (α := Float) s).Writable) :
    Closed (Command.parameterText (Value.text (α := Float) s)).toList ∧
      Text.Unbroken (Command.parameterText (Value.text (α := Float) s)).toList ∧
      parameter name (Command.parameterText (Value.text (α := Float) s)).toList =
        .ok (Value.text (α := Float) (Rgba.bareStyle s)) := by
  obtain ⟨hunbroken, hstyle⟩ := h
  have htext : (Command.parameterText (Value.text (α := Float) s)).toList =
      '"' :: s.toList ++ ['"'] := by
    unfold Command.parameterText
    rw [String.toList_append, String.toList_append]
    rfl
  have hquotes : ∀ c ∈ s.toList, c ≠ '"' := by
    rintro c hc rfl
    have hmem : '"' ∈ Text.trim s.toList := Text.mem_trimBy_of_mem hc (by decide)
    rcases Rgba.visible_of_isStyle hstyle _ hmem with hspace | hvisible
    · exact absurd hspace (by decide)
    · exact hvisible.2.1 rfl
  have hquote : (isStyleName name ||
      ((('"' :: s.toList ++ ['"']).head?.map isQuote).getD false)) = true := by
    rw [hname]
    rfl
  rw [htext]
  refine ⟨closed_quoted hquotes, unbroken_quoted hunbroken, ?_⟩
  unfold parameter
  rw [if_pos hquote, unquote_quoted]
  rfl

/-- **A writable value comes back from its text**, which is a token on a line. -/
theorem parameter_parameterText (hname : isStyleName name = false) {v : Value Float}
    (h : v.Writable) :
    Closed (Command.parameterText v).toList ∧ Text.Unbroken (Command.parameterText v).toList ∧
      parameter name (Command.parameterText v).toList = .ok v.reread := by
  cases v with
  | number n =>
    obtain ⟨⟨hwritten, hne⟩, hread⟩ := parameter_plainText hname h
    exact ⟨closed_of_isWritten hwritten hne, unbroken_of_isWritten hwritten, hread⟩
  | text s => exact parameter_text hname h
  | flag b => exact parameter_flag hname b
  | null => cases h
  | array items => cases h
  | object fields => cases h

end

end Line

end CanvasScript
