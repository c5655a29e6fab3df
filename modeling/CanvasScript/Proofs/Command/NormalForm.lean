import CanvasScript.Proofs.Command.Line

/-!
# The normal form of programs in lines

Lines may be written in many ways. What `parse_program_text` makes of them is written in one by
`format_program_text`, and reading this gives the same program again.

* `Value.Legible` tells the values that come back from their texts as they are, but for the form of
  their numbers.
* `Value.IsRead` tells what a line can give; together with the checks that it passes, this makes its
  command legible (`Line.exists_command`).
* `readLines_textLines`: **a program of legible commands is read from its lines**.
* `readLines_normal`: **what is read from any lines is read again from its normal form**, with the
  same values, and the normal form stays as it is.
-/

namespace CanvasScript

open Text

/-! ## Legible commands -/

/-- A value that a line can hold: a finite double or an integer that equals one, a text that can
stand between quotes, or a flag. -/
def Value.Legible : Value Float → Prop
  | .number (.int n) => ∃ x, Binary64.toRat? x = .ok n
  | .number (.real x) => ∃ r, Binary64.toRat? x = .ok r
  | .text s => Text.Bare Text.isBlank s.toList ∧ ∀ c ∈ s.toList, c = ' ' ∨ Rgba.IsVisible c
  | .flag _ => True
  | _ => False

/-- A command that a line can hold. -/
structure Command.Legible (command : Command Float) : Prop where
  valid : command.isInvalid = false
  fits : command.Fits
  arguments : ∀ v ∈ command.arguments, v.Legible

/-- A legible value comes back in its plainest form. -/
theorem Value.Legible.reread_eq {v : Value Float} (h : v.Legible) :
    v.reread = v.mapNumber Number.plain := by
  cases v with
  | number n =>
    cases n with
    | int n =>
      obtain ⟨x, hx⟩ := h
      exact congrArg Value.number (Number.reread_int hx)
    | real x => rfl
  | text s =>
    have htrim : trim s.toList = s.toList := trimBy_eq_self h.1
    show Value.text (String.ofList (trim s.toList)) = .text s
    rw [htrim, String.ofList_toList]
  | _ => rfl

namespace Command.Legible

variable {command : Command Float} (h : command.Legible)

include h

theorem of_mem_fields {v : Value Float} (hv : v ∈ command.fields) (hnull : v ≠ .null) : v.Legible :=
  h.arguments v (mem_arguments_of_mem_fields h.valid hv hnull)

/-- A legible command can be written in a line. -/
theorem writable : command.Writable := by
  refine ⟨h.valid, h.fits, fun style hstyle => ?_⟩
  have hlegible := h.of_mem_fields ((text_mem_fields h.valid).mpr hstyle) nofun
  exact Line.unbroken_of_visible hlegible.2

/-- The direction of an arc is legible. -/
theorem parameters : ∀ v ∈ command.parameters, v.Legible := by
  obtain ⟨direction, hdirection, hparameters⟩ := Line.exists_parameters h.valid
  rw [hparameters]
  intro v hv
  simp only [List.mem_append, List.mem_map] at hv
  rcases hv with (⟨n, hn, rfl⟩ | hv) | ⟨style, hstyle, rfl⟩
  · exact h.of_mem_fields ((number_mem_fields h.valid).mpr hn) nofun
  · rcases hdirection v hv with rfl | rfl
    · exact ⟨_, Binary64.toRat?_zero⟩
    · exact ⟨_, Binary64.toRat?_one⟩
  · exact h.of_mem_fields ((text_mem_fields h.valid).mpr hstyle) nofun

/-- An arc with a colour tells its direction, since a null is not legible. -/
theorem isDirected_plain : (command.mapNumbers Number.plain).IsDirected := by
  cases command with
  | draw paint figure color =>
    cases figure with
    | arc x y radius start finish counterclockwise =>
      cases color with
      | none => trivial
      | some style =>
        cases counterclockwise with
        | some b => rfl
        | none =>
          have hnull := h.arguments .null (by simp [Command.arguments, Command.fields,
            Figure.fields, Command.dropNulls, Value.isNull])
          cases hnull
    | _ => cases color <;> trivial
  | _ => trivial

/-- **A legible command comes back in its plainest form.** -/
theorem items_reread : command.reread.items = (command.mapNumbers Number.plain).items := by
  have hvalid := h.valid
  obtain ⟨kind, hkind⟩ := exists_kind? hvalid
  have hreread := (kind?_reread command).trans hkind
  have hplain := (kind?_mapNumbers Number.plain command).trans hkind
  have hparameters : command.reread.parameters = (command.mapNumbers Number.plain).parameters := by
    rw [parameters_reread hvalid, parameters_mapNumbers _ (fun _ => rfl) hvalid]
    exact List.map_congr_left fun v hv => (h.parameters v hv).reread_eq
  have harguments := Line.arguments_parameters hreread command.isDirected_reread
  rw [hparameters, Line.arguments_parameters hplain h.isDirected_plain] at harguments
  rw [items_eq (isInvalid_of_kind? hreread), items_eq (isInvalid_of_kind? hplain), hreread, hplain,
    Except.ok.inj harguments]

end Command.Legible

/-! ## What lines give -/

/-- A value that a line can give before it is checked. -/
def Value.IsRead : Value Float → Prop
  | .number (.int n) => ∃ x, Binary64.toRat? x = .ok n
  | .number (.real _) => True
  | .text s => Bare isBlank s.toList
  | .flag _ => True
  | _ => False

theorem Value.IsRead.ne_null {v : Value Float} (h : v.IsRead) : v ≠ .null := by
  rintro rfl
  exact h

namespace Line

theorem bare_unquote (token : List Char) : Bare isBlank (unquote token) := bare_trimBy _ _

theorem isRead_text (token : List Char) :
    (Value.text (α := Float) (String.ofList (unquote token))).IsRead := by
  show Bare isBlank (String.ofList (unquote token)).toList
  rw [String.toList_ofList]
  exact bare_unquote token

theorem isRead_numberOf (token : List Char) (x : Float) :
    (Value.number (numberOf token x)).IsRead := by
  unfold numberOf
  split
  · rename_i n hwhole
    split
    · trivial
    · exact ⟨x, Binary64.whole?_eq_some.mp hwhole⟩
  · trivial

theorem isRead_parameter {name : String} {token : List Char} {v : Value Float}
    (h : parameter name token = .ok v) : v.IsRead := by
  unfold parameter at h
  split at h
  · cases h
    exact isRead_text token
  · split at h
    · cases h
      trivial
    · split at h
      · cases h
        trivial
      · split at h
        · cases h
          exact isRead_numberOf _ _
        · cases h

theorem isRead_mapM {name : String} {tokens : List (List Char)} {values : List (Value Float)}
    (h : tokens.mapM (parameter name) = .ok values) : ∀ v ∈ values, v.IsRead := by
  induction tokens generalizing values with
  | nil =>
    cases h
    exact fun _ hv => nomatch hv
  | cons token tokens ih =>
    rw [List.mapM_cons] at h
    obtain ⟨v, hv, h⟩ := bind_eq_ok.mp h
    obtain ⟨rest, hrest, h⟩ := bind_eq_ok.mp h
    cases h
    exact List.forall_mem_cons.mpr ⟨isRead_parameter hv, ih hrest⟩

theorem isRead_directed {kind : Kind} {values directed' : List (Value Float)}
    (h : directed kind values = .ok directed') (hvalues : ∀ v ∈ values, v.IsRead) :
    ∀ v ∈ directed', v.IsRead := by
  unfold directed at h
  split at h
  · simp only [List.forall_mem_cons] at hvalues
    obtain ⟨hx, hy, hradius, hstart, hfinish, -, hrest⟩ := hvalues
    split at h
    · cases h
      simp only [List.forall_mem_cons]
      exact ⟨hx, hy, hradius, hstart, hfinish, trivial, hrest⟩
    · split at h
      · cases h
        simp only [List.forall_mem_cons]
        exact ⟨hx, hy, hradius, hstart, hfinish, trivial, hrest⟩
      · cases h
  · cases h
    exact hvalues

/-- The items of a line are a name and values that lines can give. -/
theorem isRead_items {s : List Char} {row : List (Value Float)} (h : items s = .ok row) :
    ∀ v ∈ row.tail, v.IsRead := by
  unfold items at h
  dsimp only at h
  split at h
  · cases h
    exact List.forall_mem_singleton.mpr (isRead_text _)
  · cases h
    exact List.forall_mem_singleton.mpr (isRead_text _)
  · split at h
    · cases h
    · obtain ⟨values, hvalues, h⟩ := bind_eq_ok.mp h
      obtain ⟨values', hvalues', h⟩ := bind_eq_ok.mp h
      cases h
      have hread := isRead_mapM hvalues
      unfold arguments at hvalues'
      split at hvalues'
      · exact isRead_directed hvalues' hread
      · cases hvalues'
        exact hread

/-- A value that a line gives and that passes the checks is legible. -/
theorem legible_of_isRead {command : Command Float} (hvalid : command.isInvalid = false)
    (hfits : command.Fits) {v : Value Float} (hv : v ∈ command.arguments) (h : v.IsRead) :
    v.Legible := by
  have hfield := Command.mem_fields_of_mem_arguments hvalid hv
  cases v with
  | number n =>
    have hfinite := hfits.numbers n ((Command.number_mem_fields hvalid).mp hfield)
    cases n with
    | int n => exact h
    | real x => exact Binary64.isFinite_iff.mp (Except.ok.inj hfinite)
  | text s =>
    have hstyle := hfits.colors s ((Command.text_mem_fields hvalid).mp hfield)
    have hvisible := Rgba.visible_of_isStyle hstyle
    have htrim : trim s.toList = s.toList := trimBy_eq_self h
    rw [htrim] at hvisible
    exact ⟨h, hvisible⟩
  | _ => exact h

/-- **What a line gives are the items of a legible command.** -/
theorem exists_command {line : List Char} {row : List (Value Float)}
    (h : read? line = .ok (some row)) :
    ∃ command : Command Float, command.Legible ∧ command.items = row := by
  unfold read? at h
  dsimp only at h
  split at h
  · cases h
  · split at h
    · cases h
    · rename_i hitems
      obtain ⟨command, hdecode, h⟩ := bind_eq_ok.mp h
      cases h
      obtain ⟨kind, values, hrow, hcommand, hvalid⟩ := Command.items_of_decode hdecode
      obtain rfl : row = .text kind.name :: values := Option.some.inj hrow
      have hread : ∀ v ∈ values, v.IsRead := isRead_items hitems
      rw [Command.dropNulls_eq_self fun v hv => (hread v hv).ne_null] at hcommand
      have harguments : command.arguments = values := by
        rw [Command.items_eq hvalid] at hcommand
        exact (List.cons.inj hcommand).2
      have hfits := Command.fits_of_decode hdecode
      refine ⟨command, ⟨hvalid, hfits, fun v hv => ?_⟩, hcommand⟩
      exact legible_of_isRead hvalid hfits hv (hread v (harguments ▸ hv))

/-! ## Programs -/

/-- What is read without errors comes from lines that are read. -/
theorem of_readFrom {number : Nat} {lines : List (List Char)} {rows : List (List (Value Float))}
    (h : readFrom number lines = .ok (rows, [])) :
    ∀ row ∈ rows, ∃ line ∈ lines, read? line = .ok (some row) := by
  induction lines generalizing number rows with
  | nil =>
    cases h
    exact fun _ hrow => nomatch hrow
  | cons line lines ih =>
    rw [readFrom] at h
    split at h
    · cases h
    · obtain ⟨⟨rows', errors⟩, -, h⟩ := bind_eq_ok.mp h
      cases h
    · rename_i read hread
      obtain ⟨⟨rows', errors⟩, hrows, h⟩ := bind_eq_ok.mp h
      cases h
      intro row hrow
      rcases List.mem_append.mp hrow with hrow | hrow
      · obtain rfl := Option.mem_toList.mp hrow
        exact ⟨line, List.mem_cons_self .., hread⟩
      · obtain ⟨line', hline', hread'⟩ := ih hrows row hrow
        exact ⟨line', List.mem_cons_of_mem _ hline', hread'⟩

end Line

/-- What is read from lines are the items of legible commands. -/
theorem exists_commands {text : String} {rows : List (List (Value Float))}
    (h : readLines text = .ok rows) :
    ∃ commands : List (Command Float), (∀ command ∈ commands, command.Legible) ∧
      rows = commands.map Command.items := by
  have hrows : ∀ row ∈ rows, ∃ command : Command Float, command.Legible ∧ command.items = row := by
    unfold readLines at h
    split at h
    · cases h
    · rename_i hread
      cases h
      intro row hrow
      obtain ⟨line, -, hline⟩ := Line.of_readFrom hread row hrow
      exact Line.exists_command hline
    · cases h
  clear h
  induction rows with
  | nil => exact ⟨[], fun _ hmem => (nomatch hmem), rfl⟩
  | cons row rows ih =>
    obtain ⟨⟨command, hcommand, rfl⟩, hrest⟩ := List.forall_mem_cons.mp hrows
    obtain ⟨commands, hcommands, rfl⟩ := ih hrest
    exact ⟨command :: commands, List.forall_mem_cons.mpr ⟨hcommand, hcommands⟩, rfl⟩

/-- **A program of legible commands is read from its lines**, in its plainest form. -/
theorem readLines_textLines {commands : List (Command Float)}
    (h : ∀ command ∈ commands, command.Legible) :
    readLines (Command.textLines commands) =
      .ok (commands.map fun command => (command.mapNumbers Number.plain).items) := by
  rw [readLines_textLines_reread fun command hmem => (h command hmem).writable]
  exact congrArg Except.ok (List.map_congr_left fun command hmem => (h command hmem).items_reread)

/-! ## The normal form -/

/-- Numbers have the same value, and other values are the same. -/
def Value.Same : Value Float → Value Float → Prop
  | .number m, .number n => ∃ r, m.toRat? = .ok r ∧ n.toRat? = .ok r
  | v, w => v = w

theorem Value.Legible.same_plain {v : Value Float} (h : v.Legible) :
    v.Same (v.mapNumber Number.plain) := by
  cases v with
  | number n =>
    obtain ⟨r, hr⟩ : ∃ r, n.toRat? = .ok r := by
      cases n with
      | int n => exact ⟨n, rfl⟩
      | real x => exact h
    exact ⟨r, hr, (Number.toRat?_plain n).trans hr⟩
  | _ => exact rfl

theorem Command.Legible.same_items {command : Command Float} (h : command.Legible) :
    List.Forall₂ Value.Same command.items (command.mapNumbers Number.plain).items := by
  rw [Command.items_mapNumbers _ h.valid, Command.items_eq h.valid, List.forall₂_map_right_iff,
    List.forall₂_same]
  exact List.forall_mem_cons.mpr ⟨rfl, fun v hv => (h.arguments v hv).same_plain⟩

/-- **What is read from lines is read again from its normal form.** The instructions of a text that
is read are decoded, under either policy; the lines of the decoded commands are read as
instructions with the same values, and what these are decoded to has the very same lines. -/
theorem readLines_normal {text : String} {rows : List (List (Value Float))}
    (h : readLines text = .ok rows) :
    ∃ decoded decoded' : Decoded Float, ∃ rows' : List (List (Value Float)),
      (∀ policy, Command.decodeAll policy (rows.map .row) = .ok decoded) ∧
      readLines (Command.textLines decoded.commands) = .ok rows' ∧
      List.Forall₂ (List.Forall₂ Value.Same) rows rows' ∧
      (∀ policy, Command.decodeAll policy (rows'.map .row) = .ok decoded') ∧
      Command.textLines decoded'.commands = Command.textLines decoded.commands := by
  obtain ⟨commands, hcommands, rfl⟩ := exists_commands h
  have hfits : ∀ command ∈ commands, command.Fits ∧ command.isInvalid = false :=
    fun command hmem => ⟨(hcommands command hmem).fits, (hcommands command hmem).valid⟩
  have hfits' : ∀ command ∈ commands.map (Command.mapNumbers Number.plain),
      command.Fits ∧ command.isInvalid = false := by
    rintro _ hplain
    obtain ⟨command, hmem, rfl⟩ := List.mem_map.mp hplain
    obtain ⟨hfit, hvalid⟩ := hfits command hmem
    exact ⟨Command.fits_plain hfit, (Command.isInvalid_mapNumbers _ command).trans hvalid⟩
  refine ⟨⟨commands, []⟩, ⟨commands.map (Command.mapNumbers Number.plain), []⟩, _, fun policy => ?_,
    readLines_textLines hcommands, ?_, fun policy => ?_, ?_⟩
  · rw [List.map_map]
    exact Command.decodeAll_items hfits policy
  · rw [List.forall₂_map_left_iff, List.forall₂_map_right_iff, List.forall₂_same]
    exact fun command hmem => (hcommands command hmem).same_items
  · have hdecode := Command.decodeAll_items hfits' policy
    rw [List.map_map] at hdecode
    rw [List.map_map]
    exact hdecode
  · have hline : Command.line ∘ Command.mapNumbers (α := Float) Number.plain = Command.line :=
      funext Command.line_plain
    unfold Command.textLines
    rw [List.map_map, hline]

/-- A text with both forms of lines, quotes and none, commas inside a colour, both forms of the
direction of an arc, and numbers with points and exponents. -/
def mixedText : String :=
  "fillStyle = red ;\n# a note\n\n  translate( 10.0 , -0.0 );\nrotate(1.5e1)\n" ++
    "fillArc(0, .5, 25e-1, 0, 90, 1, 'rgb(1, 2, 3)')\n" ++
    "strokeArc(0,0,1_0,0,360,true,\"#fff\")\nsave()"

theorem readLines_normal_mixed :
    ∃ rows, readLines (α := Float) mixedText = .ok rows ∧
      ∃ decoded decoded' : Decoded Float, ∃ rows' : List (List (Value Float)),
        (∀ policy, Command.decodeAll policy (rows.map .row) = .ok decoded) ∧
        readLines (Command.textLines decoded.commands) = .ok rows' ∧
        List.Forall₂ (List.Forall₂ Value.Same) rows rows' ∧
        (∀ policy, Command.decodeAll policy (rows'.map .row) = .ok decoded') ∧
        Command.textLines decoded'.commands = Command.textLines decoded.commands := by
  have hread : (readLines (α := Float) mixedText).isOk = true := by decide +kernel
  obtain ⟨rows, hrows⟩ := isOk_iff.mp hread
  exact ⟨rows, hrows, readLines_normal hrows⟩

end CanvasScript
