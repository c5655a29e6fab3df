import CanvasScript.Proofs.Command.Line

/-!
# Styles that break a line

There may be line breaks among the blanks around a style. The line of a command that names such a
style (`format_command_line`) falls apart there, and `parse_command_line` refuses one of its parts:
the one that ends behind the first quote, or the one that starts before the last.

* `Line.exists_parts` are these parts.
* `Line.exists_unread`: **a line with a broken style has a part that cannot be read**.
* `readLines_broken`: **a program with a broken style is not read**.
-/

namespace CanvasScript

open Text

namespace Line

/-! ## Parts of lines -/

/-- Blanks around a part do not count. -/
theorem read?_blanks {part lead trail : List Char} (hbare : Bare isBlank part)
    (hlead : ∀ c ∈ lead, isBlank c = true) (htrail : ∀ c ∈ trail, isBlank c = true) :
    read? (α := Float) (lead ++ (part ++ trail)) = read? part := by
  have htrim : trim (lead ++ (part ++ trail)) = trim part :=
    (trimBy_append hbare hlead htrail).trans (trimBy_eq_self hbare).symm
  unfold read?
  rw [htrim]

/-- A call that is not closed is none. -/
theorem call?_unclosed {name inner : List Char} (hname : ∀ c ∈ name, isWord c = true) :
    call? (name ++ '(' :: (inner ++ ['"'])) = none := by
  have hparenthesis : ∀ c ∈ ('(' :: (inner ++ ['"'])).head?, isWord c = false := by
    rintro c ⟨⟩
    decide
  have htrim : trimRight isBlank (inner ++ ['"']) = inner ++ ['"'] :=
    trimRight_eq_self (last_concat (by decide) inner)
  have hsemicolon : dropSemicolon (inner ++ ['"']) = inner ++ ['"'] :=
    dropSemicolon_concat (by decide) inner
  unfold call?
  rw [dropWhile_append_stop hname hparenthesis, List.dropWhile_cons_of_neg (by decide)]
  simp only [hsemicolon, htrim]
  rw [List.getLast?_concat]
  simp

/-- A line that ends behind the first quote of a call is refused. -/
theorem read?_unclosed {kind : Kind} (hstyle : ∀ paint, kind ≠ .style paint) (inner : List Char) :
    ∃ fault, read? (α := Float) (kind.name.toList ++ '(' :: (inner ++ ['"'])) =
      .error (.fault fault) := by
  have hlast : isBlank '"' = false := by decide
  obtain ⟨htrim, hsilent⟩ := trim_isSilent kind ('(' :: inner) hlast
  rw [List.append_assoc, List.cons_append] at htrim hsilent
  refine ⟨.unreadable (String.ofList (kind.name.toList ++ '(' :: (inner ++ ['"']))), ?_⟩
  unfold read? items
  simp only [htrim, hsilent, assigned?_call hstyle,
    call?_unclosed fun c hc => (kind.isWord_of_mem_name c hc).1]
  rfl

/-- A line that ends behind the first quote of a style is refused. -/
theorem read?_assigned (paint : Paint) :
    ∃ fault, read? (α := Float) ((Kind.style paint).name.toList ++ [' ', '=', ' ', '"']) =
      .error (.fault fault) := by
  cases paint <;> exact ⟨_, rfl⟩

/-- A line that starts before the last quote is refused. -/
theorem read?_quote {closing : List Char} (h : closing = [] ∨ closing = [')']) :
    ∃ fault, read? (α := Float) ('"' :: closing) = .error (.fault fault) := by
  rcases h with rfl | rfl
  · exact ⟨_, rfl⟩
  · exact ⟨_, rfl⟩

/-- A command names one style at most. -/
theorem colors_eq_singleton {command : Command Float} {style : String}
    (h : style ∈ command.colors) : command.colors = [style] := by
  cases command with
  | style paint color => rw [List.mem_singleton.mp h, Command.colors]
  | draw paint figure color =>
    obtain rfl := Option.mem_toList.mp h
    rfl
  | _ => cases h

/-- What a line shows before and behind a style that it names. The part up to the first quote is
refused where it stands alone. -/
theorem exists_parts {command : Command Float} (hvalid : command.isInvalid = false)
    (hfits : command.Fits) {style : String} (hstyle : style ∈ command.colors) :
    ∃ opening closing,
      command.line.toList = opening ++ '"' :: (style.toList ++ '"' :: closing) ∧
      Unbroken opening ∧ Bare isBlank (opening ++ ['"']) ∧ (closing = [] ∨ closing = [')']) ∧
      ∃ fault, read? (α := Float) (opening ++ ['"']) = .error (.fault fault) := by
  have hname (kind : Kind) : Unbroken kind.name.toList := fun c hc =>
    isLineBreak_eq_false (kind.isWord_of_mem_name c hc).2
  have hbare (kind : Kind) (rest : List Char) :
      Bare isBlank (kind.name.toList ++ rest ++ ['"']) := by
    obtain ⟨first, name, hfirst⟩ := List.exists_cons_of_ne_nil kind.name_ne_nil
    have hblank := (kind.isWord_of_mem_name first (hfirst ▸ List.mem_cons_self ..)).2
    rw [hfirst]
    exact bare_cons_concat hblank (by decide) (name ++ rest)
  rcases style_or_call hvalid with ⟨paint, color, rfl⟩ | ⟨kind, hkind, hcall⟩
  · obtain rfl := List.mem_singleton.mp hstyle
    refine ⟨(Kind.style paint).name.toList ++ [' ', '=', ' '], [], ?_,
      (hname _).append (by decide), hbare _ _, .inl rfl, ?_⟩
    · rw [toList_line_style, List.append_assoc]
      rfl
    · rw [List.append_assoc]
      exact read?_assigned paint
  · obtain ⟨direction, hdirection, hparameters⟩ := exists_parameters hvalid
    have hwritable := writable_numbers hfits hdirection
    have hunbroken : ∀ text ∈ (command.numbers.map Value.number ++ direction).map
        fun v => (Command.parameterText v).toList, Unbroken text := by
      rintro _ htext
      obtain ⟨v, hv, rfl⟩ := List.mem_map.mp htext
      exact unbroken_parameterText (hwritable v hv)
    have hquoted : (Command.parameterText (α := Float) (.text style)).toList =
        '"' :: (style.toList ++ ['"']) := by
      unfold Command.parameterText
      rw [String.toList_append, String.toList_append]
      rfl
    have hseparator : Unbroken [',', ' '] := by decide
    obtain ⟨inner, hinner, hjoined⟩ :=
      exists_intercalate_concat hseparator hunbroken ('"' :: (style.toList ++ ['"']))
    refine ⟨kind.name.toList ++ '(' :: inner, [')'], ?_, (hname _).append (hinner.cons (by decide)),
      hbare _ _, .inr rfl, ?_⟩
    · rw [toList_line_call hkind hcall, hparameters, colors_eq_singleton hstyle, List.map_append,
        List.map_singleton, List.map_singleton, hquoted, hjoined]
      simp
    · rw [List.append_assoc]
      exact read?_unclosed hcall inner

/-! ## Broken styles -/

/-- **A line with a broken style has a part that cannot be read**, which stands between two
breaks. -/
theorem exists_unread {command : Command Float} (hvalid : command.isInvalid = false)
    (hfits : command.Fits) {style : String} (hstyle : style ∈ command.colors)
    (hbroken : ¬ Unbroken style.toList) :
    ∃ front part back, command.line.toList = front ++ (part ++ back) ∧ Unbroken part ∧ part ≠ [] ∧
      (∀ c ∈ front.getLast?, isLineBreak c = true) ∧ (∀ c ∈ back.head?, isLineBreak c = true) ∧
      ∃ fault, read? (α := Float) part = .error (.fault fault) := by
  obtain ⟨opening, closing, hline, hopening, hbare, hclosing, hunclosed⟩ :=
    exists_parts hvalid hfits hstyle
  have hnone : ∀ c ∈ ([] : List Char), isBlank c = true := fun _ hc => nomatch hc
  obtain ⟨lead, trail, hlead, htrail, hsplit⟩ := exists_trimBy isBlank style.toList
  have hcore : Unbroken (trimBy isBlank style.toList) :=
    unbroken_of_visible (Rgba.visible_of_isStyle (hfits.colors style hstyle))
  generalize trimBy isBlank style.toList = core at hsplit hcore
  rw [hsplit] at hline hbroken
  by_cases hend : Unbroken trail
  · -- the first break stands before the style itself
    have hstart : ¬ Unbroken lead := fun hlead => hbroken (hlead.append (hcore.append hend))
    obtain ⟨before, b, behind, rfl, hbefore, hb⟩ := exists_first_break hstart
    have hblanks : ∀ c ∈ before, isBlank c = true := fun c hc =>
      hlead c (List.mem_append_left _ hc)
    have hread := read?_blanks hbare hnone hblanks
    refine ⟨[], opening ++ ['"'] ++ before, b :: (behind ++ (core ++ trail) ++ '"' :: closing), ?_,
      (hopening.append (by decide)).append hbefore, by simp, fun _ hc => (nomatch hc), ?_, ?_⟩
    · rw [hline]
      simp
    · rintro c ⟨⟩
      exact hb
    · rw [← List.nil_append (opening ++ ['"'] ++ before), hread]
      exact hunclosed
  · -- the last break stands behind it
    obtain ⟨before, b, behind, rfl, hb, hbehind⟩ := exists_last_break hend
    have hblanks : ∀ c ∈ behind, isBlank c = true := fun c hc =>
      htrail c (List.mem_append_right _ (List.mem_cons_of_mem _ hc))
    have hclosed : Unbroken ('"' :: closing) ∧ Bare isBlank ('"' :: closing) := by
      rcases hclosing with rfl | rfl
      · exact ⟨by decide, bare_of_all (by simp [isBlank])⟩
      · exact ⟨by decide, bare_of_all (by simp [isBlank])⟩
    have hread := read?_blanks hclosed.2 hblanks hnone
    refine ⟨opening ++ '"' :: (lead ++ (core ++ before)) ++ [b], behind ++ '"' :: closing, [], ?_,
      hbehind.append hclosed.1, by simp, ?_, fun _ hc => (nomatch hc), ?_⟩
    · rw [hline]
      simp
    · intro c hc
      rw [List.getLast?_concat] at hc
      cases hc
      exact hb
    · rw [List.append_nil] at hread
      rw [hread]
      exact read?_quote hclosing

/-- What is read without errors has no line that is refused. -/
theorem exists_read?_of_readFrom {number : Nat} {lines : List (List Char)}
    {rows : List (List (Value Float))} (h : readFrom number lines = .ok (rows, [])) :
    ∀ line ∈ lines, ∃ row, read? (α := Float) line = .ok row := by
  induction lines generalizing number rows with
  | nil => exact fun _ hline => nomatch hline
  | cons line lines ih =>
    rw [readFrom] at h
    split at h
    · cases h
    · obtain ⟨⟨rows', errors⟩, -, h⟩ := bind_eq_ok.mp h
      cases h
    · rename_i row hread
      obtain ⟨⟨rows', errors⟩, hrows, h⟩ := bind_eq_ok.mp h
      cases h
      exact List.forall_mem_cons.mpr ⟨⟨row, hread⟩, ih hrows⟩

end Line

/-- **A program with a broken style is not read** from its lines. -/
theorem readLines_broken {commands : List (Command Float)}
    (h : ∀ command ∈ commands, command.Fits ∧ command.isInvalid = false)
    {command : Command Float} (hmem : command ∈ commands) {style : String}
    (hstyle : style ∈ command.colors) (hbroken : ¬ Unbroken style.toList) :
    ∀ rows, readLines (α := Float) (Command.textLines commands) ≠ .ok rows := by
  intro rows hread
  obtain ⟨hfits, hvalid⟩ := h command hmem
  obtain ⟨before, part, behind, hline, hpart, hne, hbefore, hbehind, fault, hfault⟩ :=
    Line.exists_unread hvalid hfits hstyle hbroken
  have hjoined : command.line.toList ∈ (commands.map Command.line).map String.toList :=
    List.mem_map_of_mem (List.mem_map_of_mem hmem)
  obtain ⟨front, back, htext, hfront, hback⟩ := exists_intercalate hjoined
  have hpart : part ∈ lines (Command.textLines commands).toList := by
    have htext' : (Command.textLines commands).toList =
        (front ++ before) ++ (part ++ (behind ++ back)) := by
      unfold Command.textLines
      rw [String.toList_intercalate]
      refine htext.trans ?_
      rw [hline]
      simp only [List.append_assoc]
    rw [htext']
    exact mem_lines hpart hne (forall_mem_getLast?_append hfront hbefore)
      (forall_mem_head?_append hbehind hback)
  unfold readLines at hread
  split at hread
  · cases hread
  · rename_i hlines
    obtain ⟨row, hrow⟩ := Line.exists_read?_of_readFrom hlines part hpart
    rw [hfault] at hrow
    cases hrow
  · cases hread

end CanvasScript
