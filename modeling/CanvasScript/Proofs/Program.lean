import CanvasScript.Program.File
import CanvasScript.Proofs.Command.Export
import CanvasScript.Proofs.Command.RoundTrip
import CanvasScript.Proofs.Files
import CanvasScript.Proofs.Json.Document

/-!
# Programs that are saved

A program that is decoded strictly is written without the nulls at the ends of its rows
(`save_program`), and its file is read back (`load_program`). Only a title that is empty does not
come back: there is another for it.

* `Command.items_of_strict`: **the rows of a program are written back**, without their last nulls.
* `Command.writable_items`: what is written of a command can be written in a document.
* `Program.read_text`: **the text of a program is read** as the program.
* `Program.openAt_save`: **a program that is saved is loaded**, and one that is refused leaves its
  file as it was.
-/

namespace CanvasScript

/-! ## Rows -/

/-- **The rows of a program that is decoded under `strict` are written back**, without the nulls at
their ends. -/
theorem Command.items_of_strict {α : Type} [Written α] {rows : List (List (Value α))}
    {decoded : Decoded α} (h : decodeAll .strict (rows.map .row) = .ok decoded) :
    decoded.items = rows.map dropNulls := by
  have hrows := List.forall₂_map_left_iff.mp (forall₂_of_decodeAll h)
  have hitems : List.Forall₂ (· = ·) (rows.map dropNulls) decoded.items := by
    refine List.forall₂_map_left_iff.mpr (List.forall₂_map_right_iff.mpr
      (hrows.imp fun row command hdecode => ?_))
    obtain ⟨kind, values, hrow, hitems, -⟩ := items_of_decode hdecode
    rw [hitems, Option.some.inj hrow, dropNulls_text_cons]
  rw [List.forall₂_eq_eq_eq] at hitems
  exact hitems.symm

/-! ## Values of a program -/

theorem Number.writable {n : Number Float} (h : n.isFinite = .ok true) : Json.WritableNumber n := by
  cases n with
  | int n => exact Binary64.length_digits_le (holds_of_isFinite h)
  | real x =>
    have hfinite : Scalar.isFinite x = true := Except.ok.inj h
    exact hfinite

theorem SlotKind.writable {kind : SlotKind} {content : kind.Content Float} (h : kind.Fits content) :
    Json.Writable (kind.value content) := by
  cases kind with
  | number => exact .number (Number.writable h)
  | color => exact .text content
  | flag => exact .flag content

theorem Slot.writable {slot : Slot} {content : slot.Content Float} (h : slot.Fits content) :
    Json.Writable (slot.value content) := by
  obtain ⟨name, kind, isRequired⟩ := slot
  cases isRequired with
  | true => exact SlotKind.writable h
  | false =>
    cases content with
    | none => exact .null
    | some content => exact SlotKind.writable (h content rfl)

/-- Arguments that fit their slots can be written. -/
theorem Arguments.writable_values :
    ∀ {slots : List Slot} {arguments : Arguments Float slots}, Fits slots arguments →
      ∀ v ∈ values slots arguments, Json.Writable v
  | [], _, _, _, hv => nomatch hv
  | _ :: _, (_, _), ⟨hcontent, hmore⟩, _, hv => by
    rcases List.mem_cons.mp hv with rfl | hv
    · exact Slot.writable hcontent
    · exact writable_values hmore _ hv

namespace Command

variable {command : Command Float}

/-- **What is written of a command can be written in a document.** -/
theorem writable_items (hfits : command.Fits) (hvalid : command.isInvalid = false) :
    ∀ v ∈ command.items, Json.Writable v := by
  rw [items_eq hvalid]
  refine List.forall_mem_cons.mpr ⟨.text _, fun v hv => ?_⟩
  have hfield := mem_fields_of_mem_arguments hvalid hv
  obtain ⟨kind, arguments, rfl⟩ := exists_arguments hvalid
  rw [kind.fields_command] at hfield
  exact Arguments.writable_values (kind.fits_arguments hfits) v hfield

theorem items_ne_nil (hvalid : command.isInvalid = false) : command.items ≠ [] := by
  rw [items_eq hvalid]
  exact List.cons_ne_nil _ _

end Command

namespace Program

/-! ## The text of a program -/

section

variable {p : Program Float}

/-- A program whose values can be written can be written as a document. -/
theorem writable_toValue (h : ∀ row ∈ p.rows, ∀ v ∈ row, Json.Writable v) :
    Json.Writable p.toValue := by
  have hnames : ["title", "transformations"].Nodup := by decide
  refine .object hnames (List.forall_mem_cons.mpr ⟨.text _, List.forall_mem_singleton.mpr
    (.array fun v hv => ?_)⟩)
  obtain ⟨row, hrow, rfl⟩ := List.mem_map.mp hv
  exact .array (h row hrow)

theorem rowsFrom_map_array {α : Type} {rows : List (List (Value α))} (h : ∀ row ∈ rows, row ≠ [])
    (index : Nat) : rowsFrom index (rows.map .array) = .ok rows := by
  induction rows generalizing index with
  | nil => rfl
  | cons row rest ih =>
    obtain ⟨hrow, hrest⟩ := List.forall_mem_cons.mp h
    obtain ⟨item, items, rfl⟩ := List.exists_cons_of_ne_nil hrow
    rw [List.map_cons, rowsFrom, ih hrest]
    rfl

theorem titleOf_text (title : String) :
    titleOf (some (.text title : Value Float)) = if title = "" then defaultTitle else title := by
  by_cases h : title = ""
  · rw [h]
    rfl
  · rw [if_neg h]
    exact if_pos (bne_iff_ne.mpr h)

/-- **The text of a program is read** as the program, where an empty title counts as none. -/
theorem read_text (hrows : ∀ row ∈ p.rows, row ≠ [])
    (hvalues : ∀ row ∈ p.rows, ∀ v ∈ row, Json.Writable v) (policy : Value Float) :
    read policy p.text =
      checked policy ⟨if p.title = "" then defaultTitle else p.title, p.rows⟩ := by
  have hjson : Json.read p.text = .ok p.toValue := Json.read_indented (writable_toValue hvalues)
  have hfields : ofFields [("title", .text p.title), ("transformations",
      .array (p.rows.map .array))] =
        .ok (⟨if p.title = "" then defaultTitle else p.title, p.rows⟩ : Program Float) := by
    rw [← titleOf_text]
    exact bind_eq_ok.mpr ⟨p.rows, rowsFrom_map_array hrows 0, rfl⟩
  unfold read
  rw [hjson]
  show (ofFields [("title", .text p.title), ("transformations", .array (p.rows.map .array))] >>=
    checked policy) = _
  rw [hfields]
  rfl

/-! ## Saving and loading -/

/-- No check is asked for, or one under a policy. -/
def IsPolicy (policy : Value Float) : Prop :=
  policy = .null ∨ ∃ named, Policy.ofValue? policy = .ok named

variable {decoded : Decoded Float}

/-- What is decoded strictly passes every check when it is written. -/
theorem checked_items (h : Command.decodeAll .strict p.instructions = .ok decoded)
    {policy : Value Float} (hpolicy : IsPolicy policy) (title : String) :
    checked policy ⟨title, decoded.items⟩ = .ok ⟨title, decoded.items⟩ := by
  rcases hpolicy with rfl | ⟨named, hnamed⟩
  · rfl
  · have hdecode := Command.decodeAll_items (fun command hmem =>
      ⟨Command.fits_of_decodeAll h command hmem, Command.isInvalid_of_decodeAll h command hmem⟩)
      named
    have hinstructions : instructions ⟨title, decoded.items⟩ =
        decoded.commands.map fun command => .row command.items :=
      List.map_map
    unfold checked
    split
    · rfl
    · rw [hnamed, hinstructions]
      show (Except.mapError _ (Command.decodeAll named _) >>= fun _ => pure _) = _
      rw [hdecode]
      rfl

/-- **What is written of a program is read** without the nulls at the ends of its rows. -/
theorem read_normalized (h : Command.decodeAll .strict p.instructions = .ok decoded)
    {policy : Value Float} (hpolicy : IsPolicy policy) :
    read policy (text { p with rows := decoded.items }) =
      .ok ⟨if p.title = "" then defaultTitle else p.title, p.rows.map Command.dropNulls⟩ := by
  have hcommand : ∀ row ∈ decoded.items, ∃ command : Command Float, command.Fits ∧
      command.isInvalid = false ∧ command.items = row := by
    rintro row hrow
    obtain ⟨command, hmem, rfl⟩ := List.mem_map.mp hrow
    exact ⟨command, Command.fits_of_decodeAll h command hmem,
      Command.isInvalid_of_decodeAll h command hmem, rfl⟩
  rw [read_text, checked_items h hpolicy, Command.items_of_strict h]
  · intro row hrow
    obtain ⟨command, -, hvalid, rfl⟩ := hcommand row hrow
    exact Command.items_ne_nil hvalid
  · intro row hrow
    obtain ⟨command, hfits, hvalid, rfl⟩ := hcommand row hrow
    exact Command.writable_items hfits hvalid

theorem saved_eq (hrows : p.rows ≠ [])
    (h : Command.decodeAll .strict p.instructions = .ok decoded) :
    p.saved true = .ok (text { p with rows := decoded.items }) := by
  have hempty : ¬ p.rows.isEmpty = true := List.isEmpty_iff.not.mpr hrows
  unfold saved normalized
  rw [if_pos rfl, if_neg hempty, h]
  rfl

/-- **A program that is saved is loaded** again, whether or not it is checked under a policy: with
its title, or with the default one if it has none, and with its rows but for the nulls at their
ends. One that is refused leaves all files as they were. -/
theorem openAt_save (p : Program Float) (path : Path) (tree : FileTree) :
    (∀ decoded, p.rows ≠ [] → Command.decodeAll .strict p.instructions = .ok decoded →
      tree.Holds path → (p.save true path tree).1 = .ok () ∧
        ∀ policy, IsPolicy policy → openAt policy path (p.save true path tree).2 =
          .ok ⟨if p.title = "" then defaultTitle else p.title, p.rows.map Command.dropNulls⟩) ∧
      ∀ fault, (p.save true path tree).1 = .error fault → (p.save true path tree).2 = tree := by
  refine ⟨fun decoded hrows hdecode hpath => ?_, fun fault => save_refused⟩
  obtain ⟨tree', hwrite, hread⟩ := FileTree.read_write hpath (text { p with rows := decoded.items })
  have hsave : p.save true path tree = (.ok (), tree') := by
    unfold save
    rw [saved_eq hrows hdecode]
    simp only [hwrite]
  rw [hsave]
  exact ⟨rfl, fun policy hpolicy => bind_eq_ok.mpr
    ⟨_, mapError_eq_ok.mpr hread, mapError_eq_ok.mpr (read_normalized hdecode hpolicy)⟩⟩

end

end Program

/-- A program whose optional colour is left out. -/
def squareProgram : Program Float where
  title := "Square \u25a1"
  rows := [[.text "fillRect", .int 0, .int 0, .real 2.5, .int 1, .null], [.text "restore"]]

/-- It is loaded without the null of the colour, also under `strict`. A program without instructions
does not take its place. -/
theorem openAt_save_square :
    (squareProgram.save true (Path.ofText "square.json") .empty).1 = .ok () ∧
      Program.openAt (.text "strict") (Path.ofText "square.json")
          (squareProgram.save true (Path.ofText "square.json") .empty).2 =
        .ok ⟨"Square \u25a1",
          [[.text "fillRect", .int 0, .int 0, .real 2.5, .int 1], [.text "restore"]]⟩ ∧
      ∀ tree, (Program.save true (Path.ofText "square.json") ⟨"Square", []⟩ tree).1 =
          .error (.program (.empty : SaveError Float)) ∧
        (Program.save true (Path.ofText "square.json") (⟨"Square", []⟩ : Program Float) tree).2 =
          tree := by
  have hvalid : (Command.decodeAll .strict squareProgram.instructions).isOk = true := by
    decide +kernel
  obtain ⟨decoded, hdecode⟩ := isOk_iff.mp hvalid
  have hpath : FileTree.empty.Holds (Path.ofText "square.json") :=
    ⟨["square.json"], by decide +kernel, by decide +kernel⟩
  obtain ⟨hsave, hopen⟩ := (Program.openAt_save squareProgram _ _).1 decoded (List.cons_ne_nil _ _)
    hdecode hpath
  exact ⟨hsave, hopen _ (.inr ⟨.strict, rfl⟩), fun tree =>
    ⟨rfl, (Program.openAt_save ⟨"Square", []⟩ _ tree).2 _ rfl⟩⟩

/-- A program without a title. -/
def untitledProgram : Program Float := ⟨"", [[.text "save"]]⟩

/-- **A title that is empty does not come back**: the program is loaded under the default one. -/
theorem openAt_save_untitled :
    untitledProgram.title = "" ∧
      (Command.decodeAll .strict untitledProgram.instructions).isOk = true ∧
      (untitledProgram.save true (Path.ofText "a.json") .empty).1.isOk = true ∧
      ((Program.openAt (.null : Value Float) (Path.ofText "a.json")
        (untitledProgram.save true (Path.ofText "a.json") .empty).2).toOption.map (·.title)) =
          some "Untitled" := by
  exact ⟨rfl, by decide +kernel, by decide +kernel, by decide +kernel⟩

end CanvasScript
