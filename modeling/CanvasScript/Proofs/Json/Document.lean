import CanvasScript.Proofs.Json.Number
import CanvasScript.Proofs.Json.Text

/-!
# JSON documents

A document that is written over several lines, as `save_program` writes it, is read back. The reader
takes one step of fuel for each value and each item, and every one of them takes a character.

* `Writable`: the values that are written as what they are. Their numbers are, and no name stands
  twice in an object.
* `readsBack`: **values, items and fields read back** at every depth.
* `read_indented`: **so does a whole document**.
-/

namespace CanvasScript

namespace Json

open Text

/-- A value that is written as what it is. -/
inductive Writable : Value Float → Prop
  | null : Writable .null
  | flag (b : Bool) : Writable (.flag b)
  | number {n : Number Float} : WritableNumber n → Writable (.number n)
  | text (s : String) : Writable (.text s)
  | array {items : List (Value Float)} : (∀ v ∈ items, Writable v) → Writable (.array items)
  | object {fields : Fields Float} : (fields.map Prod.fst).Nodup →
    (∀ field ∈ fields, Writable field.2) → Writable (.object fields)

/-! ## Blanks -/

theorem skip_cons {c : Char} (h : isSpace c = false) (s : List Char) : skip (c :: s) = c :: s :=
  List.dropWhile_cons_of_neg (by rw [h]; exact Bool.false_ne_true)

theorem toList_newLine (depth : Nat) :
    (newLine depth).toList = '\n' :: List.replicate (2 * depth) ' ' := String.toList_ofList

/-- A line break and its blanks are skipped. -/
theorem skip_newLine (depth : Nat) (s : List Char) :
    skip ((newLine depth).toList ++ s) = skip s := by
  rw [toList_newLine]
  refine List.dropWhile_append_of_pos fun c hc => ?_
  rcases List.mem_cons.mp hc with rfl | hc
  · rfl
  · rw [List.eq_of_mem_replicate hc]
    rfl

/-- No number goes on in the next line. -/
theorem endsNumber_newLine (depth : Nat) (s : List Char) :
    EndsNumber ((newLine depth).toList ++ s) := by
  rw [toList_newLine]
  rintro c ⟨⟩
  decide

theorem endsNumber_comma (s : List Char) : EndsNumber (',' :: s) := by
  rintro c ⟨⟩
  decide

/-! ## How a value starts -/

theorem ne_of_number {c d : Char} (hc : c = '-' ∨ c.isDigit = true) (hd : d ≠ '-')
    (hd' : d.isDigit = false) : c ≠ d := by
  rintro rfl
  rcases hc with hc | hc
  · exact hd hc
  · exact Bool.noConfusion (hc.symm.trans hd')

/-- A number is neither a blank nor anything else that is told by one character. -/
theorem plain_of_number {c : Char} (hc : c = '-' ∨ c.isDigit = true) :
    isSpace c = false ∧ c ≠ '"' ∧ c ≠ '[' ∧ c ≠ ']' ∧ c ≠ '\x7b' := by
  have hne {d : Char} (hd : d ≠ '-') (hd' : d.isDigit = false) := ne_of_number hc hd hd'
  refine ⟨?_, hne (by decide) rfl, hne (by decide) rfl, hne (by decide) rfl, hne (by decide) rfl⟩
  unfold isSpace
  simp [hne (d := ' '), hne (d := '\t'), hne (d := '\n'), hne (d := '\r')]

/-! ## The characters of a value -/

section

variable (depth : Nat)

theorem toList_null : (indentedAt depth (.null : Value Float)).toList = ['n', 'u', 'l', 'l'] := by
  show "null".toList = _
  rfl

theorem toList_true :
    (indentedAt depth (.flag true : Value Float)).toList = ['t', 'r', 'u', 'e'] := by
  show "true".toList = _
  rfl

theorem toList_false :
    (indentedAt depth (.flag false : Value Float)).toList = ['f', 'a', 'l', 's', 'e'] := by
  show "false".toList = _
  rfl

theorem toList_array_nil :
    (indentedAt depth (.array [] : Value Float)).toList = ['[', ']'] := by
  show "[]".toList = _
  rfl

theorem toList_array_cons (v : Value Float) (rest : List (Value Float)) :
    (indentedAt depth (.array (v :: rest))).toList =
      '[' :: ((newLine (depth + 1)).toList ++
        ((indentedItems (depth + 1) (v :: rest)).toList ++ ((newLine depth).toList ++ [']']))) := by
  show ("[" ++ newLine (depth + 1) ++ indentedItems (depth + 1) (v :: rest) ++ newLine depth ++
    "]").toList = _
  simp only [String.toList_append, List.append_assoc]
  rfl

theorem toList_object_nil :
    (indentedAt depth (.object [] : Value Float)).toList = ['\x7b', '\x7d'] := by
  show "\x7b\x7d".toList = _
  rfl

theorem toList_object_cons (field : String × Value Float) (rest : Fields Float) :
    (indentedAt depth (.object (field :: rest))).toList =
      '\x7b' :: ((newLine (depth + 1)).toList ++
        ((indentedFields (depth + 1) (field :: rest)).toList ++
          ((newLine depth).toList ++ ['\x7d']))) := by
  show ("\x7b" ++ newLine (depth + 1) ++ indentedFields (depth + 1) (field :: rest) ++
    newLine depth ++ "\x7d").toList = _
  simp only [String.toList_append, List.append_assoc]
  rfl

theorem toList_items_cons (v w : Value Float) (rest : List (Value Float)) :
    (indentedItems depth (v :: w :: rest)).toList =
      (indentedAt depth v).toList ++
        (',' :: ((newLine depth).toList ++ (indentedItems depth (w :: rest)).toList)) := by
  show (indentedAt depth v ++ "," ++ newLine depth ++ indentedItems depth (w :: rest)).toList = _
  simp only [String.toList_append, List.append_assoc]
  rfl

theorem toList_fields_single (name : String) (v : Value Float) :
    (indentedFields depth [(name, v)]).toList =
      (writtenText name).toList ++ (':' :: ' ' :: (indentedAt depth v).toList) := by
  show (writtenText name ++ ": " ++ indentedAt depth v).toList = _
  simp only [String.toList_append, List.append_assoc]
  rfl

theorem toList_fields_cons (name : String) (v : Value Float) (field : String × Value Float)
    (rest : Fields Float) :
    (indentedFields depth ((name, v) :: field :: rest)).toList =
      (writtenText name).toList ++ (':' :: ' ' :: ((indentedAt depth v).toList ++
        (',' :: ((newLine depth).toList ++ (indentedFields depth (field :: rest)).toList)))) := by
  show (writtenText name ++ ": " ++ indentedAt depth v ++ "," ++ newLine depth ++
    indentedFields depth (field :: rest)).toList = _
  simp only [String.toList_append, List.append_assoc]
  rfl

end

/-- A value starts with a character that is no blank and closes no array. -/
theorem head_indentedAt {v : Value Float} (h : Writable v) (depth : Nat) :
    ∃ c more, (indentedAt depth v).toList = c :: more ∧ isSpace c = false ∧ c ≠ ']' := by
  cases h with
  | null => exact ⟨'n', _, toList_null depth, rfl, by decide⟩
  | flag b =>
    cases b with
    | true => exact ⟨'t', _, toList_true depth, rfl, by decide⟩
    | false => exact ⟨'f', _, toList_false depth, rfl, by decide⟩
  | number h =>
    obtain ⟨c, more, hmore, hc⟩ := head_writtenNumber h
    obtain ⟨hspace, -, -, hclose, -⟩ := plain_of_number hc
    exact ⟨c, more, hmore, hspace, hclose⟩
  | text s => exact ⟨'"', _, String.toList_ofList, rfl, by decide⟩
  | @array items =>
    cases items with
    | nil => exact ⟨'[', _, toList_array_nil depth, rfl, by decide⟩
    | cons v rest => exact ⟨'[', _, toList_array_cons depth v rest, rfl, by decide⟩
  | @object fields =>
    cases fields with
    | nil => exact ⟨'\x7b', _, toList_object_nil depth, rfl, by decide⟩
    | cons field rest => exact ⟨'\x7b', _, toList_object_cons depth field rest, rfl, by decide⟩

/-- So do the items of an array. -/
theorem head_indentedItems {v : Value Float} (h : Writable v) (depth : Nat)
    (items : List (Value Float)) :
    ∃ c more, (indentedItems depth (v :: items)).toList = c :: more ∧ isSpace c = false ∧
      c ≠ ']' := by
  obtain ⟨c, more, hmore, hc⟩ := head_indentedAt h depth
  cases items with
  | nil => exact ⟨c, more, hmore, hc⟩
  | cons w items => exact ⟨c, _, by rw [toList_items_cons, hmore]; rfl, hc⟩

/-- What stands in front of a value may be skipped. -/
theorem skip_indentedAt {v : Value Float} (h : Writable v) (depth : Nat) (s : List Char) :
    skip ((indentedAt depth v).toList ++ s) = (indentedAt depth v).toList ++ s := by
  obtain ⟨c, more, hmore, hspace, -⟩ := head_indentedAt h depth
  rw [hmore]
  exact skip_cons hspace _

theorem skip_indentedItems {v : Value Float} (h : Writable v) (depth : Nat)
    (items : List (Value Float)) (s : List Char) :
    skip ((indentedItems depth (v :: items)).toList ++ s) =
      (indentedItems depth (v :: items)).toList ++ s := by
  obtain ⟨c, more, hmore, hspace, -⟩ := head_indentedItems h depth items
  rw [hmore]
  exact skip_cons hspace _

/-- Fields start with the quote of a name. -/
theorem head_indentedFields (depth : Nat) (field : String × Value Float) (fields : Fields Float) :
    ∃ more, (indentedFields depth (field :: fields)).toList = '"' :: more := by
  obtain ⟨name, v⟩ := field
  cases fields with
  | nil => exact ⟨_, by rw [toList_fields_single, writtenText, String.toList_ofList]; rfl⟩
  | cons field fields =>
    exact ⟨_, by rw [toList_fields_cons, writtenText, String.toList_ofList]; rfl⟩

theorem skip_indentedFields (depth : Nat) (field : String × Value Float) (fields : Fields Float)
    (s : List Char) :
    skip ((indentedFields depth (field :: fields)).toList ++ s) =
      (indentedFields depth (field :: fields)).toList ++ s := by
  obtain ⟨more, hmore⟩ := head_indentedFields depth field fields
  rw [hmore]
  exact skip_cons rfl _

/-! ## Reading back -/

/-- With a count of fuel, values, items and fields are read back that take fewer characters. -/
structure ReadsBack (fuel : Nat) : Prop where
  value : ∀ {v : Value Float} {depth : Nat} {rest : List Char}, Writable v → EndsNumber rest →
    (indentedAt depth v).toList.length ≤ fuel →
      readValue fuel ((indentedAt depth v).toList ++ rest) = .ok (v, rest)
  items : ∀ {v : Value Float} {items done : List (Value Float)} {depth outer : Nat}
    {rest : List Char}, (∀ w ∈ v :: items, Writable w) →
      (indentedItems depth (v :: items)).toList.length < fuel →
        readItems fuel done ((indentedItems depth (v :: items)).toList ++
          ((newLine outer).toList ++ ']' :: rest)) = .ok (done.reverse ++ v :: items, rest)
  fields : ∀ {field : String × Value Float} {fields done : Fields Float} {depth outer : Nat}
    {rest : List Char}, (∀ f ∈ field :: fields, Writable f.2) →
      ((done ++ field :: fields).map Prod.fst).Nodup →
        (indentedFields depth (field :: fields)).toList.length < fuel →
          readFields fuel done ((indentedFields depth (field :: fields)).toList ++
            ((newLine outer).toList ++ '\x7d' :: rest)) = .ok (done ++ field :: fields, rest)

variable {fuel : Nat} {rest : List Char}

theorem readValue_word {c : Char} (hquote : c ≠ '"') (hopen : c ≠ '[') (hbrace : c ≠ '\x7b')
    (fuel : Nat) (more : List Char) :
    readValue (α := Float) (fuel + 1) (c :: more) = readWord (c :: more) := by
  rw [readValue]
  all_goals
    rintro _ ⟨⟩
    contradiction

theorem readValue_number {n : Number Float} (h : WritableNumber n) (hrest : EndsNumber rest)
    (depth : Nat) :
    readValue (fuel + 1) ((indentedAt depth (.number n)).toList ++ rest) =
      .ok (.number n, rest) := by
  obtain ⟨c, more, htext, hc⟩ := head_writtenNumber h
  obtain ⟨-, hquote, hopen, -, hbrace⟩ := plain_of_number hc
  have hread : readWord (c :: more ++ rest) = .ok (.number n, rest) := by
    rw [← htext]
    exact readWord_writtenNumber h hrest
  show readValue (fuel + 1) ((writtenNumber n).toList ++ rest) = _
  rw [htext]
  exact (readValue_word hquote hopen hbrace fuel (more ++ rest)).trans hread

theorem readValue_text (s : String) (depth : Nat) :
    readValue (α := Float) (fuel + 1) ((indentedAt depth (.text s : Value Float)).toList ++ rest) =
      .ok (.text s, rest) := by
  obtain ⟨tail, htail, hread⟩ := readText_writtenText s rest
  show readValue (fuel + 1) ((writtenText s).toList ++ rest) = _
  rw [htail]
  show (readText (tail.length + 1) [] tail).map _ = _
  rw [hread]
  rfl

/-- An array that does not close at once is read as its items. -/
theorem readValue_array {s more : List Char} {c : Char} (hs : skip s = c :: more) (hc : c ≠ ']') :
    readValue (α := Float) (fuel + 1) ('[' :: s) =
      (readItems fuel [] (c :: more)).map fun (items, rest) => (.array items, rest) := by
  rw [readValue, hs]
  split
  · rename_i heq
    cases heq
    exact absurd rfl hc
  · rfl

/-- An object that starts with a quote is read as its fields. -/
theorem readValue_object {s more : List Char} (hs : skip s = '"' :: more) :
    readValue (α := Float) (fuel + 1) ('\x7b' :: s) =
      (readFields fuel [] ('"' :: more)).map fun (fields, rest) => (.object fields, rest) := by
  rw [readValue, hs]
  rfl

namespace ReadsBack

theorem array (h : ReadsBack fuel) {items : List (Value Float)} (hitems : ∀ v ∈ items, Writable v)
    {depth : Nat} (hfuel : (indentedAt depth (.array items)).toList.length ≤ fuel + 1) :
    readValue (fuel + 1) ((indentedAt depth (.array items)).toList ++ rest) =
      .ok (.array items, rest) := by
  cases items with
  | nil =>
    rw [toList_array_nil]
    rfl
  | cons v items =>
    rw [toList_array_cons] at hfuel ⊢
    obtain ⟨c, more, htext, hspace, hclose⟩ := head_indentedItems (hitems v List.mem_cons_self)
      (depth + 1) items
    have hskip : skip ((newLine (depth + 1)).toList ++
        ((indentedItems (depth + 1) (v :: items)).toList ++
          ((newLine depth).toList ++ ']' :: rest))) =
        c :: (more ++ ((newLine depth).toList ++ ']' :: rest)) := by
      rw [skip_newLine, htext]
      exact skip_cons hspace _
    have hread : readItems fuel [] ((indentedItems (depth + 1) (v :: items)).toList ++
        ((newLine depth).toList ++ ']' :: rest)) = .ok (v :: items, rest) :=
      h.items hitems (by simp only [List.length_cons, List.length_append] at hfuel; omega)
    rw [htext] at hread
    simp only [List.cons_append, List.append_assoc, List.nil_append] at hread ⊢
    rw [readValue_array hskip hclose, hread]
    rfl

theorem object (h : ReadsBack fuel) {fields : Fields Float}
    (hnames : (fields.map Prod.fst).Nodup) (hfields : ∀ f ∈ fields, Writable f.2) {depth : Nat}
    (hfuel : (indentedAt depth (.object fields)).toList.length ≤ fuel + 1) :
    readValue (fuel + 1) ((indentedAt depth (.object fields)).toList ++ rest) =
      .ok (.object fields, rest) := by
  cases fields with
  | nil =>
    rw [toList_object_nil]
    rfl
  | cons field fields =>
    rw [toList_object_cons] at hfuel ⊢
    obtain ⟨more, htext⟩ := head_indentedFields (depth + 1) field fields
    have hskip : skip ((newLine (depth + 1)).toList ++
        ((indentedFields (depth + 1) (field :: fields)).toList ++
          ((newLine depth).toList ++ '\x7d' :: rest))) =
        '"' :: (more ++ ((newLine depth).toList ++ '\x7d' :: rest)) := by
      rw [skip_newLine, htext]
      rfl
    have hread : readFields fuel [] ((indentedFields (depth + 1) (field :: fields)).toList ++
        ((newLine depth).toList ++ '\x7d' :: rest)) = .ok (field :: fields, rest) :=
      h.fields hfields hnames
        (by simp only [List.length_cons, List.length_append] at hfuel; omega)
    rw [htext] at hread
    simp only [List.cons_append, List.append_assoc, List.nil_append] at hread ⊢
    rw [readValue_object hskip, hread]
    rfl

/-- One more step of fuel reads the values that take one more character. -/
theorem value_succ (h : ReadsBack fuel) {v : Value Float} {depth : Nat} (hv : Writable v)
    (hrest : EndsNumber rest) (hfuel : (indentedAt depth v).toList.length ≤ fuel + 1) :
    readValue (fuel + 1) ((indentedAt depth v).toList ++ rest) = .ok (v, rest) := by
  cases hv with
  | null =>
    rw [toList_null]
    exact readValue_word (by decide) (by decide) (by decide) fuel _
  | flag b =>
    cases b with
    | true =>
      rw [toList_true]
      exact readValue_word (by decide) (by decide) (by decide) fuel _
    | false =>
      rw [toList_false]
      exact readValue_word (by decide) (by decide) (by decide) fuel _
  | number hn => exact readValue_number hn hrest depth
  | text s => exact readValue_text s depth
  | array hitems => exact h.array hitems hfuel
  | object hnames hfields => exact h.object hnames hfields hfuel

theorem items_succ (h : ReadsBack fuel) {v : Value Float} {items done : List (Value Float)}
    {depth outer : Nat} (hitems : ∀ w ∈ v :: items, Writable w)
    (hfuel : (indentedItems depth (v :: items)).toList.length < fuel + 1) :
    readItems (fuel + 1) done ((indentedItems depth (v :: items)).toList ++
      ((newLine outer).toList ++ ']' :: rest)) = .ok (done.reverse ++ v :: items, rest) := by
  have hv := hitems v List.mem_cons_self
  cases items with
  | nil =>
    have hvalue := h.value hv (endsNumber_newLine outer (']' :: rest)) (Nat.le_of_lt_succ hfuel)
    show readItems (fuel + 1) done ((indentedAt depth v).toList ++ _) = _
    rw [readItems, hvalue]
    dsimp only
    rw [skip_newLine, skip_cons rfl]
    show Except.ok ((v :: done).reverse, rest) = _
    rw [List.reverse_cons]
  | cons w items =>
    have hw := hitems w (List.mem_cons_of_mem v List.mem_cons_self)
    rw [toList_items_cons] at hfuel ⊢
    simp only [List.length_append, List.length_cons] at hfuel
    simp only [List.append_assoc, List.cons_append]
    rw [readItems, h.value hv (endsNumber_comma _) (by omega)]
    dsimp only
    rw [skip_cons rfl]
    show readItems fuel (v :: done) (skip _) = _
    rw [skip_newLine, skip_indentedItems hw,
      h.items (fun u hu => hitems u (List.mem_cons_of_mem v hu)) (by omega), List.reverse_cons,
      List.append_assoc]
    rfl

/-- The name of a field is read with what stands between it and the value. -/
theorem readFields_name (h : ReadsBack fuel) {name : String} {v : Value Float} {done : Fields Float}
    {depth : Nat} (hv : Writable v) (hnew : name ∉ done.map Prod.fst) {s : List Char}
    (hs : EndsNumber s) (hfuel : (indentedAt depth v).toList.length ≤ fuel) :
    readFields (fuel + 1) done
        ((writtenText name).toList ++ (':' :: ' ' :: ((indentedAt depth v).toList ++ s))) =
      match skip s with
      | ',' :: rest => readFields fuel (done ++ [(name, v)]) (skip rest)
      | '\x7d' :: rest => .ok (done ++ [(name, v)], rest)
      | _ => .error .malformed := by
  obtain ⟨tail, htail, hread⟩ := readText_writtenText name
    (':' :: ' ' :: ((indentedAt depth v).toList ++ s))
  have hspace : skip (' ' :: ((indentedAt depth v).toList ++ s)) =
      (indentedAt depth v).toList ++ s := skip_indentedAt hv depth s
  have hcolon : skip (':' :: ' ' :: ((indentedAt depth v).toList ++ s)) =
      ':' :: ' ' :: ((indentedAt depth v).toList ++ s) := skip_cons rfl _
  rw [htail, readFields, hread, ← Fields.put_new hnew]
  simp only [hcolon, hspace]
  split
  · rename_i hvalue
    cases (h.value hv hs hfuel).symm.trans hvalue
  · rename_i hvalue
    cases (h.value hv hs hfuel).symm.trans hvalue
    rfl

theorem fields_succ (h : ReadsBack fuel) {field : String × Value Float} {fields done : Fields Float}
    {depth outer : Nat} (hfields : ∀ f ∈ field :: fields, Writable f.2)
    (hnames : ((done ++ field :: fields).map Prod.fst).Nodup)
    (hfuel : (indentedFields depth (field :: fields)).toList.length < fuel + 1) :
    readFields (fuel + 1) done ((indentedFields depth (field :: fields)).toList ++
      ((newLine outer).toList ++ '\x7d' :: rest)) = .ok (done ++ field :: fields, rest) := by
  obtain ⟨name, v⟩ := field
  have hv : Writable v := hfields (name, v) List.mem_cons_self
  have hnew : name ∉ done.map Prod.fst := by
    rw [List.map_append, List.nodup_append] at hnames
    exact fun hname => hnames.2.2 name hname name List.mem_cons_self rfl
  cases fields with
  | nil =>
    rw [toList_fields_single] at hfuel ⊢
    simp only [List.length_append, List.length_cons] at hfuel
    simp only [List.append_assoc, List.cons_append]
    rw [h.readFields_name hv hnew (endsNumber_newLine outer _) (by omega), skip_newLine,
      skip_cons rfl]
    rfl
  | cons field fields =>
    rw [toList_fields_cons] at hfuel ⊢
    simp only [List.length_append, List.length_cons] at hfuel
    simp only [List.append_assoc, List.cons_append]
    have hread : readFields fuel (done ++ [(name, v)])
        ((indentedFields depth (field :: fields)).toList ++
          ((newLine outer).toList ++ '\x7d' :: rest)) =
          .ok (done ++ [(name, v)] ++ field :: fields, rest) :=
      h.fields (fun f hf => hfields f (List.mem_cons_of_mem _ hf))
        (by rwa [List.append_assoc]) (by omega)
    rw [h.readFields_name hv hnew (endsNumber_comma _) (by omega), skip_cons rfl]
    show readFields fuel _ (skip _) = _
    rw [skip_newLine, skip_indentedFields, hread, List.append_assoc]
    rfl

end ReadsBack

/-- **Everything reads back**, by induction on the fuel. -/
theorem readsBack (fuel : Nat) : ReadsBack fuel := by
  induction fuel with
  | zero =>
    refine ⟨fun {v depth _} hv _ hfuel => ?_, fun _ hfuel => absurd hfuel (Nat.not_lt_zero _),
      fun _ _ hfuel => absurd hfuel (Nat.not_lt_zero _)⟩
    obtain ⟨c, more, htext, -⟩ := head_indentedAt hv depth
    rw [htext] at hfuel
    exact absurd hfuel (Nat.not_succ_le_zero _)
  | succ fuel ih => exact ⟨ih.value_succ, ih.items_succ, ih.fields_succ⟩

/-- **A document reads back**, with a line break behind it. -/
theorem read_indented {v : Value Float} (h : Writable v) : read (indented v ++ "\n") = .ok v := by
  have htext : (indented v ++ "\n").toList = (indentedAt 0 v).toList ++ ['\n'] := by
    rw [String.toList_append]
    rfl
  have hread : readValue ((indented v ++ "\n").toList.length + 1)
      ((indentedAt 0 v).toList ++ ['\n']) = .ok (v, ['\n']) :=
    (readsBack _).value h (endsNumber_newLine 0 []) (by rw [htext, List.length_append]; omega)
  rw [htext] at hread
  unfold read
  rw [htext, skip_indentedAt h 0]
  simp only [hread]
  rfl

end Json

end CanvasScript
