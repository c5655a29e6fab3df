import CanvasScript.Proofs.Command.Parameter

/-!
# Lines of commands

The line of a command (`format_command_line`) is read (`parse_command_line`) as the items of that
command, as they come back from their texts.

* `call?_append` and `assigned?_append` read the two forms of lines.
* `arguments_parameters`: the parameters of a command stand for its arguments; an arc regains its
  direction.
* `read?_line`: **a line is read as the command that comes back from it**.
* `readLines_textLines_reread`: **and so is a program**, line by line.
-/

namespace CanvasScript

open Text

/-! ## Names -/

/-- Names are made of word characters, none of which is a blank. -/
theorem Kind.isWord_of_mem_name (kind : Kind) :
    ∀ c ∈ kind.name.toList, isWord c = true ∧ isBlank c = false := by
  refine List.all_iff_forall_prop.mp ?_
  cases kind with
  | style paint | rect paint | triangle paint | arc paint => cases paint <;> decide
  | _ => decide

theorem Kind.name_ne_nil (kind : Kind) : kind.name.toList ≠ [] :=
  fun h => kind.name_ne_empty (String.toList_eq_nil_iff.mp h)

/-- A command that can be written in a line: it fits, and its styles do not break the line. -/
structure Command.Writable (command : Command Float) : Prop where
  valid : command.isInvalid = false
  fits : command.Fits
  unbroken : ∀ style ∈ command.colors, Unbroken style.toList

namespace Line

theorem isStyleName_name {kind : Kind} (h : ∀ paint, kind ≠ .style paint) :
    isStyleName kind.name = false := by
  cases kind with
  | style paint => exact absurd rfl (h paint)
  | rect paint | triangle paint | arc paint => cases paint <;> decide
  | _ => decide

/-! ## The two forms of lines -/

theorem dropSemicolon_concat {last : Char} (h : last ≠ ';') (s : List Char) :
    dropSemicolon (s ++ [last]) = s ++ [last] := by
  unfold dropSemicolon
  rw [List.getLast?_concat, if_neg (by simpa using h)]

theorem contains_eq_false {s : List Char} (h : Unbroken s) : s.contains '\n' = false := by
  rw [← Bool.not_eq_true, List.contains_iff_mem]
  exact fun hmem => absurd (h _ hmem) (by decide)

/-- A call is read as its name and what stands between the parentheses. -/
theorem call?_append {name inner : List Char} (hname : ∀ c ∈ name, isWord c = true)
    (hne : name ≠ []) (hinner : Unbroken inner) :
    call? (name ++ '(' :: (inner ++ [')'])) = some (name, inner) := by
  have hparenthesis : ∀ c ∈ ('(' :: (inner ++ [')'])).head?, isWord c = false := by
    rintro c ⟨⟩
    decide
  have htrim : trimRight isBlank (inner ++ [')']) = inner ++ [')'] :=
    trimRight_eq_self (last_concat (by decide) inner)
  have hsemicolon : dropSemicolon (inner ++ [')']) = inner ++ [')'] :=
    dropSemicolon_concat (by decide) inner
  unfold call?
  rw [takeWhile_append_stop hname hparenthesis, dropWhile_append_stop hname hparenthesis,
    List.dropWhile_cons_of_neg (by decide)]
  simp only [hsemicolon, htrim, List.dropLast_concat, contains_eq_false hinner]
  rw [List.getLast?_concat, List.isEmpty_eq_false_iff.mpr hne]
  rfl

/-- An assignment is read as what follows its equals sign. -/
theorem assigned?_append (name : List Char) {s : List Char} (hs : Unbroken ('"' :: s ++ ['"'])) :
    assigned? name (name ++ ' ' :: '=' :: ' ' :: ('"' :: s ++ ['"'])) =
      some ('"' :: s ++ ['"']) := by
  have hbreak := contains_eq_false hs
  have hsemicolon : dropSemicolon ('"' :: s ++ ['"']) = '"' :: s ++ ['"'] :=
    dropSemicolon_concat (by decide) ('"' :: s)
  unfold assigned?
  rw [if_pos (List.isPrefixOf_iff_prefix.mpr (List.prefix_append _ _)), List.drop_left,
    List.dropWhile_cons_of_pos (by decide), List.dropWhile_cons_of_neg (by decide)]
  simp only
  rw [List.dropWhile_cons_of_pos (by decide), List.cons_append,
    List.dropWhile_cons_of_neg (by decide)]
  rw [List.cons_append] at hbreak hsemicolon
  rw [hbreak, hsemicolon]
  rfl

/-- A call of a command that is not a style assigns to none. -/
theorem assigned?_call {kind : Kind} (hstyle : ∀ paint, kind ≠ .style paint) (paint : Paint)
    (rest : List Char) :
    assigned? (Kind.style paint).name.toList (kind.name.toList ++ '(' :: rest) = none := by
  have hfront : (Kind.style paint).name.toList.isPrefixOf (kind.name.toList ++ '(' :: rest) =
      false := by
    cases kind with
    | style paint => exact absurd rfl (hstyle paint)
    | rect paint' | triangle paint' | arc paint' => cases paint <;> cases paint' <;> rfl
    | _ => cases paint <;> rfl
  unfold assigned?
  rw [hfront]
  rfl

/-! ## Parameters -/

variable {α : Type}

/-- The parameters of a command are its numbers, the direction of an arc and its styles. -/
theorem exists_parameters {command : Command α} (hvalid : command.isInvalid = false) :
    ∃ direction : List (Value α), (∀ v ∈ direction, v = .int 0 ∨ v = .int 1) ∧
      command.parameters =
        command.numbers.map .number ++ direction ++ command.colors.map .text := by
  have hnone : ∀ v ∈ ([] : List (Value α)), v = .int 0 ∨ v = .int 1 := fun _ hv => nomatch hv
  cases command with
  | move motion => cases motion <;> exact ⟨[], hnone, rfl⟩
  | draw paint figure color =>
    cases figure with
    | arc x y radius start finish counterclockwise =>
      have hone (b : Bool) : ∀ v ∈ [(Value.int (if b then 1 else 0) : Value α)],
          v = .int 0 ∨ v = .int 1 := by
        cases b <;> simp
      rcases counterclockwise with - | b
      · cases color with
        | none => exact ⟨[], hnone, rfl⟩
        | some style => exact ⟨_, hone false, rfl⟩
      · cases color <;> exact ⟨_, hone b, rfl⟩
    | _ => cases color <;> exact ⟨[], hnone, rfl⟩
  | invalid items reason => cases hvalid
  | _ => exact ⟨[], hnone, rfl⟩

/-- A command is a style or a call. -/
theorem style_or_call {command : Command α} (hvalid : command.isInvalid = false) :
    (∃ paint color, command = .style paint color) ∨
      ∃ kind, command.kind? = some kind ∧ ∀ paint, kind ≠ .style paint := by
  cases command with
  | style paint color => exact .inl ⟨paint, color, rfl⟩
  | move motion => cases motion <;> exact .inr ⟨_, rfl, fun _ => nofun⟩
  | draw paint figure color => cases figure <;> exact .inr ⟨_, rfl, fun _ => nofun⟩
  | invalid items reason => cases hvalid
  | _ => exact .inr ⟨_, rfl, fun _ => nofun⟩

variable [Written α]

/-- **The parameters of a command stand for its arguments**, if an arc with a colour has a
direction. -/
theorem arguments_parameters {kind : Kind} {command : Command α} (hkind : command.kind? = some kind)
    (hdirected : command.IsDirected) :
    arguments kind.name command.parameters = .ok command.arguments := by
  unfold arguments
  rw [Kind.ofName?_name]
  cases command with
  | move motion => cases motion <;> cases hkind <;> rfl
  | draw paint figure color =>
    cases figure with
    | arc x y radius start finish counterclockwise =>
      cases hkind
      cases counterclockwise with
      | none =>
        cases color with
        | none => rfl
        | some style => cases hdirected
      | some b => cases b <;> cases color <;> rfl
    | _ => cases hkind; rfl
  | invalid items reason => cases hkind
  | _ => cases hkind; rfl

/-- Writable values come back from their texts, one after another. -/
theorem mapM_parameter {name : String} (hname : isStyleName name = false)
    {values : List (Value Float)} (h : ∀ v ∈ values, v.Writable) :
    (values.map fun v => (Command.parameterText v).toList).mapM (parameter name) =
      .ok (values.map Value.reread) := by
  induction values with
  | nil => rfl
  | cons v values ih =>
    obtain ⟨hv, hvalues⟩ := List.forall_mem_cons.mp h
    rw [List.map_cons, List.mapM_cons, (parameter_parameterText hname hv).2.2, ih hvalues]
    rfl

/-! ## Lines -/

/-- What starts with a name and ends in another character than a blank is neither blank around nor
silent. -/
theorem trim_isSilent (kind : Kind) (rest : List Char) {last : Char}
    (hlast : isBlank last = false) :
    trim (kind.name.toList ++ rest ++ [last]) = kind.name.toList ++ rest ++ [last] ∧
      isSilent (kind.name.toList ++ rest ++ [last]) = false := by
  obtain ⟨first, name, hname⟩ := List.exists_cons_of_ne_nil kind.name_ne_nil
  obtain ⟨hword, hblank⟩ := kind.isWord_of_mem_name first (hname ▸ List.mem_cons_self ..)
  rw [hname]
  refine ⟨trimBy_eq_self (bare_cons_concat hblank hlast (name ++ rest)), ?_⟩
  have hne (c : Char) (hc : isWord c = false) : (c == first) = false := by
    rw [beq_eq_false_iff_ne]
    rintro rfl
    exact absurd hword (by rw [hc]; decide)
  simp [isSilent, List.isPrefixOf, hne '/' (by decide), hne '#' (by decide)]

/-- A line that is neither blank around nor silent is read as its items, once these are checked. -/
theorem read?_eq {line : List Char} {row : List (Value α)} {command : Command α}
    (htrim : trim line = line) (hsilent : isSilent line = false) (hitems : items line = .ok row)
    (hdecode : Command.decode (.row row) = .ok command) : read? line = .ok (some row) := by
  unfold read?
  simp only [htrim, hsilent, hitems, hdecode]
  rfl

/-- The line of a style. -/
theorem toList_line_style (paint : Paint) (color : String) :
    (Command.style (α := α) paint color).line.toList =
      (Kind.style paint).name.toList ++ ' ' :: '=' :: ' ' :: ('"' :: color.toList ++ ['"']) := by
  show ((Kind.style paint).name ++ " = \"" ++ color ++ "\"").toList = _
  rw [String.toList_append, String.toList_append, String.toList_append, List.append_assoc,
    List.append_assoc]
  rfl

/-- The line of a command that is not a style. -/
theorem toList_line_call {kind : Kind} {command : Command α} (hkind : command.kind? = some kind)
    (hstyle : ∀ paint, kind ≠ .style paint) :
    command.line.toList = kind.name.toList ++ '(' ::
      ([',', ' '].intercalate (command.parameters.map fun v => (Command.parameterText v).toList) ++
        [')']) := by
  have hother : ∀ paint color, command ≠ .style paint color := by
    rintro paint color rfl
    exact hstyle paint (Option.some.inj hkind).symm
  rw [Command.line_call (Command.isInvalid_of_kind? hkind) hother, hkind]
  simp only [String.toList_append, String.toList_intercalate, List.map_map, List.append_assoc]
  rfl

/-- The line of a style is read as its items come back. -/
theorem items_style (paint : Paint) {color : String} (h : Unbroken color.toList) :
    items (Command.style (α := Float) paint color).line.toList =
      .ok (Command.style (α := Float) paint color).reread.items := by
  have hassigned := assigned?_append (Kind.style paint).name.toList (unbroken_quoted h)
  rw [toList_line_style]
  unfold items
  cases paint with
  | fill =>
    rw [hassigned]
    simp only [unquote_quoted]
    rfl
  | stroke =>
    have hfill (rest : List Char) : assigned? (Kind.style .fill).name.toList
        ((Kind.style .stroke).name.toList ++ rest) = none := rfl
    rw [hfill, hassigned]
    simp only [unquote_quoted]
    rfl

/-- The numbers of a command that fits and the direction of an arc are writable. -/
theorem writable_numbers {command : Command Float} (h : command.Fits)
    {direction : List (Value Float)} (hdirection : ∀ v ∈ direction, v = .int 0 ∨ v = .int 1) :
    ∀ v ∈ command.numbers.map .number ++ direction, v.Writable := by
  have hfinite {n : Int} (hn : n.natAbs ≤ 2 ^ 53) : (Value.int n : Value Float).Writable :=
    if_pos (Binary64.holds_of_toRat? (Binary64.toRat?_ofInt hn))
  intro v hv
  rcases List.mem_append.mp hv with hv | hv
  · obtain ⟨n, hn, rfl⟩ := List.mem_map.mp hv
    exact h.numbers n hn
  · rcases hdirection v hv with rfl | rfl
    · exact hfinite (by decide)
    · exact hfinite (by decide)

/-- **The parameters of a writable command are writable.** -/
theorem writable_parameters {command : Command Float} (h : command.Writable) :
    ∀ v ∈ command.parameters, v.Writable := by
  obtain ⟨direction, hdirection, hparameters⟩ := exists_parameters h.valid
  rw [hparameters]
  refine List.forall_mem_append.mpr ⟨writable_numbers h.fits hdirection, fun v hv => ?_⟩
  obtain ⟨style, hstyle, rfl⟩ := List.mem_map.mp hv
  exact ⟨h.unbroken style hstyle, h.fits.colors style hstyle⟩

/-- What is written of a writable value does not break the line. -/
theorem unbroken_parameterText {v : Value Float} (h : v.Writable) :
    Unbroken (Command.parameterText v).toList := by
  have hname : isStyleName "" = false := rfl
  exact (parameter_parameterText hname h).2.1

/-- What stands between the parentheses of a line does not break it. -/
theorem unbroken_parameters {values : List (Value Float)} (h : ∀ v ∈ values, v.Writable) :
    Unbroken ([',', ' '].intercalate (values.map fun v => (Command.parameterText v).toList)) := by
  refine Unbroken.intercalate (by decide) ?_
  intro _ htext
  obtain ⟨v, hv, rfl⟩ := List.mem_map.mp htext
  exact unbroken_parameterText (h v hv)

/-- The line of another command is read as its items come back. -/
theorem items_call {kind : Kind} {command : Command Float} (hkind : command.kind? = some kind)
    (hstyle : ∀ paint, kind ≠ .style paint) (h : command.Writable) :
    items command.line.toList = .ok command.reread.items := by
  have hvalues := writable_parameters h
  have hname := isStyleName_name hstyle
  have htokens : ∀ token ∈ command.parameters.map fun v => (Command.parameterText v).toList,
      Closed token := by
    intro _ htoken
    obtain ⟨v, hv, rfl⟩ := List.mem_map.mp htoken
    exact (parameter_parameterText hname (hvalues v hv)).1
  have hkind' : command.reread.kind? = some kind := (Command.kind?_reread command).trans hkind
  rw [toList_line_call hkind hstyle]
  unfold items
  rw [assigned?_call hstyle, assigned?_call hstyle,
    call?_append (fun c hc => (kind.isWord_of_mem_name c hc).1) kind.name_ne_nil
      (unbroken_parameters hvalues)]
  simp only [String.ofList_toList]
  rw [splitParameters_intercalate htokens, mapM_parameter hname hvalues,
    ← Command.parameters_reread h.valid]
  refine (congrArg (fun x => x >>= fun values => pure (.text kind.name :: values))
    (arguments_parameters hkind' command.isDirected_reread)).trans ?_
  rw [Command.items_eq (Command.isInvalid_of_kind? hkind'), hkind']
  rfl

/-- The line of a command starts with its name and ends in another character than a blank. -/
theorem exists_line {command : Command Float} (h : command.Writable) :
    ∃ (kind : Kind) (rest : List Char) (last : Char), Unbroken rest ∧ isBlank last = false ∧
      command.line.toList = kind.name.toList ++ rest ++ [last] := by
  rcases style_or_call h.valid with ⟨paint, color, rfl⟩ | ⟨kind, hkind, hstyle⟩
  · have hcolor := h.unbroken color (List.mem_cons_self ..)
    refine ⟨.style paint, ' ' :: '=' :: ' ' :: '"' :: color.toList, '"', ?_, by decide, ?_⟩
    · exact Unbroken.append (s := [' ', '=', ' ', '"']) (by decide) hcolor
    · rw [toList_line_style, List.append_assoc]
      rfl
  · refine ⟨kind, '(' :: [',', ' '].intercalate
      (command.parameters.map fun v => (Command.parameterText v).toList), ')', ?_, by decide, ?_⟩
    · exact (unbroken_parameters (writable_parameters h)).cons (by decide)
    · rw [toList_line_call hkind hstyle, List.append_assoc]
      rfl

/-- The line of a command holds something and does not break inside. -/
theorem unbroken_line {command : Command Float} (h : command.Writable) :
    command.line.toList ≠ [] ∧ Unbroken command.line.toList := by
  obtain ⟨kind, rest, last, hrest, hlast, hline⟩ := exists_line h
  have hname : Unbroken kind.name.toList := fun c hc =>
    isLineBreak_eq_false (kind.isWord_of_mem_name c hc).2
  rw [hline]
  exact ⟨List.append_ne_nil_of_right_ne_nil _ (List.cons_ne_nil _ _),
    (hname.append hrest).append (List.forall_mem_singleton.mpr (isLineBreak_eq_false hlast))⟩

/-- **A line is read as the command that comes back from it.** -/
theorem read?_line {command : Command Float} (h : command.Writable) :
    read? command.line.toList = .ok (some command.reread.items) := by
  obtain ⟨kind, rest, last, -, hlast, hline⟩ := exists_line h
  obtain ⟨htrim, hsilent⟩ := trim_isSilent kind rest hlast
  rw [← hline] at htrim hsilent
  have hitems : items command.line.toList = .ok command.reread.items := by
    rcases style_or_call h.valid with ⟨paint, color, rfl⟩ | ⟨kind, hkind, hstyle⟩
    · exact items_style paint (h.unbroken color (List.mem_cons_self ..))
    · exact items_call hkind hstyle h
  have hvalid := (Command.isInvalid_reread command).trans h.valid
  exact read?_eq htrim hsilent hitems (Command.decode_items (Command.fits_reread h.fits) hvalid)

/-! ## Programs -/

/-- Lines that are read one by one are read together. -/
theorem readFrom_map {ι : Type} {items : List ι} {line : ι → List Char}
    {row : ι → List (Value Float)} (h : ∀ i ∈ items, read? (line i) = .ok (some (row i)))
    (number : Nat) : readFrom number (items.map line) = .ok (items.map row, []) := by
  induction items generalizing number with
  | nil => rfl
  | cons i items ih =>
    obtain ⟨hi, hitems⟩ := List.forall_mem_cons.mp h
    rw [List.map_cons, readFrom, hi, ih hitems]
    rfl

end Line

/-- **A program of writable commands is read from its lines** as it comes back. -/
theorem readLines_textLines_reread {commands : List (Command Float)}
    (h : ∀ command ∈ commands, command.Writable) :
    readLines (Command.textLines commands) =
      .ok (commands.map fun command => command.reread.items) := by
  have hlines : lines (Command.textLines commands).toList =
      commands.map fun command => command.line.toList := by
    unfold Command.textLines
    rw [String.toList_intercalate, List.map_map]
    refine lines_intercalate ?_
    rintro _ hline
    obtain ⟨command, hmem, rfl⟩ := List.mem_map.mp hline
    exact Line.unbroken_line (h command hmem)
  unfold readLines
  rw [hlines, Line.readFrom_map fun command hmem => Line.read?_line (h command hmem)]

end CanvasScript
