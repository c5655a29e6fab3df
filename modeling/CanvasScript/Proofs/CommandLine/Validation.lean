import CanvasScript.Proofs.Command.Fits
import CanvasScript.Proofs.Command.Skip
import CanvasScript.Proofs.Settings
import CanvasScript.Proofs.Timeline.Colored
import CanvasScript.Proofs.View.Direction

/-!
# Validation before and after

A program is validated under `skip`, where its errors are collected, and built (`_build_view`) under
`strict`, where they refuse it. Both find the same.

* `Command.PoliciesAgree`: what decoding under `strict` makes of what decoding under `skip` finds.
* `Command.policiesAgree`: **the policies agree on every program**, which ends with the first
  instruction that is neither taken nor refused (`Command.decodeFrom_eq_error`).
* `Session.SameEnd`: two sessions end in the same way, either with a result or early.
* `Session.validate_strict`: **a program is valid just when it is built under `strict`**, and
  otherwise both sessions say the same and end alike.

Out of scope: what comes of a valid program, which may fail for other reasons.
-/

namespace CanvasScript

/-! ## How sessions end -/

namespace CommandLine.Session

variable {α β γ δ : Type}

/-- Two sessions end in the same way: both with a result, or both early, after the same actions. -/
structure SameEnd (result : Except (Finish α) β × List Action)
    (result' : Except (Finish α) γ × List Action) : Prop where
  succeeds : (∃ b actions, result = (.ok b, actions)) ↔ ∃ c actions, result' = (.ok c, actions)
  ends : ∀ finish actions, result = (.error finish, actions) ↔ result' = (.error finish, actions)

theorem sameEnd_ok (b : β) (c : γ) (actions actions' : List Action) :
    SameEnd (α := α) (.ok b, actions) (.ok c, actions') :=
  ⟨⟨fun _ => ⟨c, actions', rfl⟩, fun _ => ⟨b, actions, rfl⟩⟩, fun _ _ =>
    ⟨fun h => (by cases h), fun h => (by cases h)⟩⟩

theorem sameEnd_error (finish : Finish α) (actions : List Action) :
    SameEnd (β := β) (γ := γ) (.error finish, actions) (.error finish, actions) :=
  ⟨⟨fun ⟨_, _, h⟩ => (by cases h), fun ⟨_, _, h⟩ => (by cases h)⟩, fun _ _ =>
    ⟨fun h => (by cases h; rfl), fun h => (by cases h; rfl)⟩⟩

theorem SameEnd.trans {first : Except (Finish α) β × List Action}
    {second : Except (Finish α) γ × List Action} {third : Except (Finish α) δ × List Action}
    (h : SameEnd first second) (h' : SameEnd second third) : SameEnd first third :=
  ⟨h.succeeds.trans h'.succeeds, fun finish actions => (h.ends finish actions).trans (h'.ends ..)⟩

/-- Lines are said one after the other. -/
theorem run_forM_say {ι : Type} (text : ι → String) (items : List ι) (actions : List Action) :
    (items.forM fun item => (say (text item) : Session α Unit)) actions =
      (.ok (), actions ++ items.map fun item => .say (text item)) := by
  induction items generalizing actions with
  | nil =>
    rw [List.map_nil, List.append_nil]
    rfl
  | cons item rest ih =>
    refine (run_bind_ok rfl).trans ((ih _).trans ?_)
    rw [List.map_cons, List.append_assoc]
    rfl

end CommandLine.Session

variable {α : Type} [Written α]

/-! ## Policies -/

namespace Command

/-- A program ends with the first instruction that is neither taken nor refused. -/
theorem decodeFrom_eq_error {instructions : List (Instruction α)} {fault : ArithmeticFault}
    (h : instructions.findSome? Instruction.overflow? = some fault) (index : Nat) :
    decodeFrom index instructions = .error fault := by
  induction instructions generalizing index with
  | nil => cases h
  | cons instruction rest ih =>
    rw [List.findSome?_cons] at h
    cases hoverflow : instruction.overflow? with
    | some fault' =>
      rw [hoverflow] at h
      cases h
      refine bind_eq_error.mpr (.inl ?_)
      unfold decodeSlot
      rw [Instruction.overflow?_eq_some.mp hoverflow]
    | none =>
      rw [hoverflow] at h
      obtain ⟨command, hslot, -⟩ := exists_decodeSlot hoverflow index
      exact bind_eq_error.mpr (.inr ⟨_, hslot, bind_eq_error.mpr (.inl (ih h (index + 1)))⟩)

/-- What decoding under `strict` makes of what decoding under `skip` finds. -/
structure PoliciesAgree (instructions : List (Instruction α)) : Prop where
  /-- Under `skip` every instruction has a slot, and the errors are those of the refused places. -/
  collected : ∀ decoded, decodeAll .skip instructions = .ok decoded →
    List.Forall₂ Instruction.HasSlot instructions decoded.commands ∧
      decoded.errors = errorsOf (refusals 0 instructions)
  /-- Under `strict` the program is refused when there are errors. -/
  refused_iff : ∀ decoded, decodeAll .skip instructions = .ok decoded →
    ((∃ errors, decodeAll .strict instructions = .error (.invalid errors)) ↔
      decoded.isOk = false)
  /-- It is refused for these errors. -/
  refused : ∀ decoded, decodeAll .skip instructions = .ok decoded → decoded.isOk = false →
    decodeAll .strict instructions = .error (.invalid decoded.errors)
  /-- Else it is decoded to the same commands, and nothing is reported. -/
  accepted : ∀ decoded, decodeAll .skip instructions = .ok decoded → decoded.isOk = true →
    decodeAll .strict instructions = .ok decoded ∧ decoded.errors = [] ∧ decoded.warnings = []
  /-- A program that ends early does so with the first instruction that makes it. -/
  ended : ∀ error, decodeAll .skip instructions = .error error →
    decodeAll .strict instructions = .error error ∧
      ∃ fault, error = .arithmetic fault ∧
        instructions.findSome? Instruction.overflow? = some fault

theorem decodeAll_of_ok {instructions : List (Instruction α)} {decoded : Decoded α}
    (h : decodeFrom 0 instructions = .ok decoded) :
    decodeAll .skip instructions = .ok decoded ∧
      decodeAll .strict instructions =
        if decoded.isOk then .ok decoded else .error (.invalid decoded.errors) := by
  obtain ⟨commands, errors⟩ := decoded
  unfold decodeAll
  rw [h]
  cases errors with
  | nil => exact ⟨rfl, rfl⟩
  | cons error errors => exact ⟨rfl, rfl⟩

theorem decodeAll_of_error {instructions : List (Instruction α)} {fault : ArithmeticFault}
    (h : decodeFrom 0 instructions = .error fault) (policy : Policy) :
    decodeAll policy instructions = .error (.arithmetic fault) := by
  unfold decodeAll
  rw [h]

/-- **The policies agree on every program.** -/
theorem policiesAgree (instructions : List (Instruction α)) : PoliciesAgree instructions := by
  cases hoverflow : instructions.findSome? Instruction.overflow? with
  | some fault =>
    have hended (policy) := decodeAll_of_error (decodeFrom_eq_error hoverflow 0) policy
    have hnot (decoded) : decodeAll .skip instructions ≠ .ok decoded := by
      rw [hended .skip]
      exact fun h => nomatch h
    refine ⟨fun _ h => absurd h (hnot _), fun _ h => absurd h (hnot _),
      fun _ h => absurd h (hnot _), fun _ h => absurd h (hnot _), fun error h => ?_⟩
    rw [hended .skip] at h
    cases h
    exact ⟨hended .strict, fault, rfl, hoverflow⟩
  | none =>
    obtain ⟨commands, hfrom, hslots⟩ := exists_slots (List.findSome?_eq_none_iff.mp hoverflow) 0
    obtain ⟨hskip, hstrict⟩ := decodeAll_of_ok hfrom
    have heq {decoded} (h : decodeAll .skip instructions = .ok decoded) :=
      Except.ok.inj (hskip.symm.trans h)
    refine ⟨?_, ?_, ?_, ?_, ?_⟩
    · rintro _ h
      obtain rfl := heq h
      exact ⟨hslots, rfl⟩
    · rintro _ h
      obtain rfl := heq h
      rw [hstrict]
      split
      · rename_i hok
        exact ⟨fun ⟨_, h⟩ => (by cases h), fun h => absurd hok (by rw [h]; decide)⟩
      · rename_i hok
        exact ⟨fun _ => Bool.eq_false_iff.mpr hok, fun _ => ⟨_, rfl⟩⟩
    · rintro _ h hok
      obtain rfl := heq h
      rw [hstrict, hok]
      rfl
    · rintro _ h hok
      obtain rfl := heq h
      have herrors := List.isEmpty_iff.mp hok
      refine ⟨?_, herrors, ?_⟩
      · rw [hstrict, if_pos hok]
      · unfold Decoded.warnings
        rw [herrors]
        rfl
    · rintro error h
      rw [hskip] at h
      cases h

end Command

/-! ## Settings with styles -/

namespace Settings

theorem isStyle_default (paint : Paint) :
    Rgba.isStyle ((default : Settings α).defaults.get paint) = true := by
  cases paint with
  | fill | stroke =>
    show Rgba.isStyle defaultStyle = true
    decide +kernel

theorem isStyle_of_overridden {base settings : Settings α} {overrides : Fields α}
    (h : base.overridden overrides = .ok settings) (paint : Paint) :
    Rgba.isStyle (settings.defaults.get paint) = true := by
  obtain ⟨fields, -, hfields⟩ := bind_eq_ok.mp h
  have hstyle := (ofFields_eq_ok hfields).style
  cases paint with
  | fill => exact hstyle ("default_fill", settings.defaults.fill) (by simp [styles])
  | stroke => exact hstyle ("default_stroke", settings.defaults.stroke) (by simp [styles])

/-- The default styles of a document denote colours. -/
theorem isStyle_of_read {text : String} {settings : Settings α} (h : read text = .ok settings)
    (paint : Paint) : Rgba.isStyle (settings.defaults.get paint) = true := by
  obtain ⟨table, -, h⟩ := bind_eq_ok.mp h
  have htable := mapError_eq_ok.mp h
  unfold ofTable at htable
  split at htable
  · exact isStyle_of_overridden htable paint
  · exact isStyle_of_overridden htable paint
  · cases htable

end Settings

/-! ## Sessions -/

namespace CommandLine.Session

/-- Settings that are loaded have default styles that denote colours. -/
theorem isStyle_of_loadSettings {reader : Reader} {path : Option Path} {settings : Settings α}
    {before after : List Action}
    (h : (loadSettings reader path) before = (.ok settings, after)) (paint : Paint) :
    Rgba.isStyle (settings.defaults.get paint) = true := by
  cases path with
  | none =>
    cases h
    exact Settings.isStyle_default paint
  | some path =>
    cases hreader : reader path with
    | ok text =>
      simp only [loadSettings, hreader] at h
      cases hread : Settings.read (α := α) text with
      | ok read =>
        rw [hread] at h
        cases h
        exact Settings.isStyle_of_read hread paint
      | error error =>
        rw [hread] at h
        cases h
    | error fault =>
      simp only [loadSettings, hreader] at h
      cases fault <;> cases h

variable {settings : Settings α} {rows : Rows α}

/-- The lines that report errors. -/
def reported (errors : List (CommandError α)) : List Action :=
  errors.map fun error => .say error.message

theorem run_validate_ok {decoded : Decoded α}
    (h : Command.decodeAll .skip (rows.map .row) = .ok decoded) (hok : decoded.isOk = true)
    (actions : List Action) : (validate rows) actions = (.ok (), actions ++
      [.say ("ok: " ++ Decimal.integerText decoded.commands.length ++ " commands")]) := by
  have hmessages : decoded.messages = [] := by
    unfold Decoded.messages
    rw [List.isEmpty_iff.mp hok]
    rfl
  unfold validate
  rw [h]
  refine (run_bind_ok rfl).trans ?_
  rw [hmessages, hok]
  rfl

theorem run_validate_refused {decoded : Decoded α}
    (h : Command.decodeAll .skip (rows.map .row) = .ok decoded) (hok : decoded.isOk = false)
    (actions : List Action) :
    (validate rows) actions = (.error (.exit 1), actions ++ reported decoded.errors) := by
  unfold validate
  rw [h]
  refine (run_bind_ok rfl).trans ((run_bind_ok (run_forM_say id _ actions)).trans ?_)
  rw [hok]
  unfold reported Decoded.messages
  rw [List.map_map]
  rfl

theorem run_validate_error {error : ProgramError α}
    (h : Command.decodeAll .skip (rows.map .row) = .error error) (actions : List Action) :
    (validate rows) actions = (.error (.broken (.compile (.program error))), actions) := by
  unfold validate
  rw [h]
  rfl

theorem run_compile_refused {errors : List (CommandError α)}
    (h : Command.decodeAll .strict (rows.map .row) = .error (.invalid errors))
    (actions : List Action) :
    (compile settings .strict rows) actions = (.error (.exit 1), actions ++ reported errors) := by
  unfold compile Timeline.ofProgram
  rw [h]
  exact run_bind_ok (run_forM_say CommandError.message errors actions)

theorem run_compile_error {fault : ArithmeticFault}
    (h : Command.decodeAll .strict (rows.map .row) = .error (.arithmetic fault))
    (actions : List Action) :
    (compile settings .strict rows) actions =
      (.error (.broken (.compile (.program (.arithmetic fault)))), actions) := by
  unfold compile Timeline.ofProgram
  rw [h]
  rfl

/-- **What is decoded is compiled** when the default styles denote colours. -/
theorem exists_run_compile (hdefaults : ∀ paint, Rgba.isStyle (settings.defaults.get paint) = true)
    {policy : Policy} {decoded : Decoded α}
    (h : Command.decodeAll policy (rows.map .row) = .ok decoded) (actions : List Action) :
    ∃ timeline, (compile settings policy rows) actions = (.ok timeline, actions) := by
  have hstyles : (settings.defaults.map Value.text).mapM (Timeline.styleOf? (α := α)) =
      .ok settings.defaults := by
    have hstyle (paint) : Timeline.styleOf? (α := α) (.text (settings.defaults.get paint)) =
        .ok (settings.defaults.get paint) := by
      obtain ⟨color, hcolor⟩ := isOk_iff.mp (hdefaults paint)
      exact map_eq_ok.mpr ⟨color, hcolor, rfl⟩
    exact bind_eq_ok.mpr ⟨_, hstyle .fill, bind_eq_ok.mpr ⟨_, hstyle .stroke, rfl⟩⟩
  obtain ⟨timeline, htimeline⟩ : ∃ timeline,
      Timeline.ofCommands (settings.defaults.map Value.text) decoded.commands = .ok timeline := by
    unfold Timeline.ofCommands
    split
    · exact ⟨_, rfl⟩
    · obtain ⟨timeline, htimeline, -⟩ := Timeline.exists_compile hdefaults
        fun command hmem => (Command.fits_of_decodeAll h command hmem).colors
      exact ⟨timeline, bind_eq_ok.mpr ⟨_, hstyles, htimeline⟩⟩
  have hprogram : Timeline.ofProgram policy (settings.defaults.map Value.text) (rows.map .row) =
      .ok (timeline, decoded.errors) :=
    bind_eq_ok.mpr ⟨_, mapError_eq_ok.mpr h,
      bind_eq_ok.mpr ⟨_, mapError_eq_ok.mpr htimeline, rfl⟩⟩
  refine ⟨timeline, ?_⟩
  unfold compile
  rw [hprogram]
  rfl

/-- A check of a program ends as the building of it under `strict` does. -/
theorem sameEnd_validate_compile
    (hdefaults : ∀ paint, Rgba.isStyle (settings.defaults.get paint) = true)
    (actions : List Action) :
    SameEnd ((validate rows) actions) ((compile settings .strict rows) actions) := by
  have hagree := Command.policiesAgree (rows.map .row)
  cases hskip : Command.decodeAll .skip (rows.map .row) with
  | error error =>
    obtain ⟨hstrict, fault, rfl, -⟩ := hagree.ended error hskip
    rw [run_validate_error hskip, run_compile_error hstrict]
    exact sameEnd_error _ _
  | ok decoded =>
    cases hok : decoded.isOk with
    | true =>
      obtain ⟨hstrict, -⟩ := hagree.accepted decoded hskip hok
      obtain ⟨timeline, hcompile⟩ := exists_run_compile hdefaults hstrict actions
      rw [run_validate_ok hskip hok, hcompile]
      exact sameEnd_ok _ _ _ _
    | false =>
      rw [run_validate_refused hskip hok,
        run_compile_refused (hagree.refused decoded hskip hok)]
      exact sameEnd_error _ _

/-- A view that is not refused at sight is opened as the program is built. -/
theorem sameEnd_compile_openView {policy : Policy} {direction : Direction}
    (h : ¬ (direction = .backward ∧ (rows.map Instruction.row).any Instruction.isStack = true))
    (actions : List Action) :
    SameEnd ((compile settings policy rows) actions)
      ((openView settings policy direction rows) actions) := by
  cases hcompile : (compile settings policy rows) actions with
  | mk result actions' =>
    cases result with
    | ok timeline =>
      obtain ⟨view, -, hview⟩ := openView_of_compile h hcompile
      rw [hview]
      exact sameEnd_ok _ _ _ _
    | error finish =>
      have hopen :
          (openView settings policy direction rows) actions = (.error finish, actions') := by
        unfold openView
        rw [if_neg (by simpa using h)]
        exact run_bind_error hcompile
      rw [hopen]
      exact sameEnd_error _ _

/-- A check of a program ends with the exit code `1` when it would be refused under `strict`. -/
theorem validate_exit_iff {actions : List Action} :
    (∃ actions', (validate rows) actions = (.error (.exit 1), actions')) ↔
      ∃ errors, Command.decodeAll .strict (rows.map .row) = .error (.invalid errors) := by
  have hagree := Command.policiesAgree (rows.map .row)
  cases hskip : Command.decodeAll .skip (rows.map .row) with
  | error error =>
    obtain ⟨hstrict, fault, rfl, -⟩ := hagree.ended error hskip
    rw [run_validate_error hskip, hstrict]
    exact ⟨fun ⟨_, h⟩ => (by cases h), fun ⟨_, h⟩ => (by cases h)⟩
  | ok decoded =>
    rw [hagree.refused_iff decoded hskip]
    cases hok : decoded.isOk with
    | true =>
      rw [run_validate_ok hskip hok]
      exact ⟨fun ⟨_, h⟩ => (by cases h), fun h => (by cases h)⟩
    | false =>
      rw [run_validate_refused hskip hok]
      exact ⟨fun _ => rfl, fun _ => ⟨_, rfl⟩⟩

/-- **A program is valid just when it is built under `strict`.** The policies agree on every list of
instructions. With settings that are loaded, a check of a program ends as the building of it does,
and as the opening of a view, unless that is refused at sight for its direction. -/
theorem validate_strict (α : Type) [Written α] :
    (∀ instructions : List (Instruction α), Command.PoliciesAgree instructions) ∧
    ∀ (reader : Reader) (path : Option Path) (settings : Settings α) (before after : List Action),
      (loadSettings reader path) before = (.ok settings, after) →
      ∀ (rows : Rows α) (actions : List Action),
        ((∃ actions', (validate rows) actions = (.error (.exit 1), actions')) ↔
          ∃ errors, Command.decodeAll .strict (rows.map .row) = .error (.invalid errors)) ∧
        SameEnd ((validate rows) actions) ((compile settings .strict rows) actions) ∧
        ∀ direction : Direction,
          if direction = .backward ∧ (rows.map Instruction.row).any Instruction.isStack = true then
            (openView settings .strict direction rows) actions =
              (.error (.exit 2), actions ++ [.say backwardText])
          else
            SameEnd ((validate rows) actions)
              ((openView settings .strict direction rows) actions) := by
  refine ⟨Command.policiesAgree, fun reader path settings before after hsettings rows actions => ?_⟩
  have hcompile : SameEnd ((validate rows) actions) ((compile settings .strict rows) actions) :=
    sameEnd_validate_compile (isStyle_of_loadSettings hsettings) actions
  refine ⟨validate_exit_iff, hcompile, fun direction => ?_⟩
  split
  · rename_i h
    exact openView_refused h
  · rename_i h
    exact hcompile.trans (sameEnd_compile_openView h actions)

/-- Without a file of settings, a program that saves and restores is valid and built, and one with
two refused instructions is refused by both sessions with the same lines. -/
theorem validate_strict_rows :
    (loadSettings (α := Float) (fun _ => .error .missing) none) [] = (.ok Settings.default, []) ∧
      (∃ actions, (validate View.stackRows) [] = (.ok (), actions)) ∧
      (∃ view actions,
        (openView Settings.default .strict .forward View.stackRows) [] = (.ok view, actions)) ∧
      ∃ actions, (validate View.plainRows) [] = (.error (.exit 1), actions) ∧
        (openView Settings.default .strict .backward View.plainRows) [] =
          (.error (.exit 1), actions) := by
  have hsettings : (loadSettings (α := Float) (fun _ => .error .missing) none) [] =
      (.ok Settings.default, []) := rfl
  have hvalid : ((Command.decodeAll .skip (View.stackRows.map .row)).toOption.map
      Decoded.isOk) = some true := by decide +kernel
  have hfaulty : ((Command.decodeAll .skip (View.plainRows.map .row)).toOption.map
      Decoded.isOk) = some false := by decide +kernel
  obtain ⟨valid, hskip, hok⟩ := Option.map_eq_some_iff.mp hvalid
  obtain ⟨faulty, hskip', hok'⟩ := Option.map_eq_some_iff.mp hfaulty
  rw [toOption_eq_some] at hskip hskip'
  have hvalidate := run_validate_ok hskip hok []
  have hvalidate' := run_validate_refused hskip' hok' []
  obtain ⟨-, -, hviews⟩ := (validate_strict Float).2 _ _ _ _ _ hsettings View.stackRows []
  obtain ⟨-, -, hviews'⟩ := (validate_strict Float).2 _ _ _ _ _ hsettings View.plainRows []
  have hview := hviews .forward
  have hview' := hviews' .backward
  rw [if_neg (by decide)] at hview hview'
  exact ⟨hsettings, ⟨_, hvalidate⟩, hview.succeeds.mp ⟨_, _, hvalidate⟩, _, hvalidate',
    (hview'.ends _ _).mp hvalidate'⟩

end CommandLine.Session

end CanvasScript
