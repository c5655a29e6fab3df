import CanvasScript.Proofs.Binary64.Range
import CanvasScript.Proofs.Except
import CanvasScript.View

/-!
# Settings that are accepted

Settings are made from the default ones by replacing values (`validate_config`), table by table.
Every table is checked as a whole. The checks let two things through: a positive number may be
infinite or no number, and an integer may lie beyond the scalars.

* `Settings.Made tables s`: the settings come from the default ones by these tables.
* `Settings.Sound tables s`: all values are as they should be, but for numbers that are not finite
  and that one of the tables gives.

Results:
* `ofFields_eq_ok` and `ofFields_failsWith`: what accepted values satisfy, and which errors refuse
  the others.
* `Sound.overridden`: one table keeps the settings sound, so all that are made are.
* `scheduler_eq_ok`, `scheduler_eq_error`: a view can be played unless its step size is not finite.
* `overridden_sound`: **a table is refused by an error that names a key, or the settings are sound
  and can be played, unless a number that is not finite was given**.
-/

namespace CanvasScript

open Scalar

/-- The key that an error names. -/
def SettingsError.key? : SettingsError → Option String
  | .unknownKey key | .notPositiveInteger key | .notPositive key | .notFlag key | .notColor key =>
    some key
  | .notTable | .arithmetic _ => none

namespace Settings

variable {α : Type}

/-! ## The values of settings -/

/-- The keys of the positive numbers. -/
def positiveKeys : List String :=
  ["canvas_scale", "play_step_size", "animation_duration_ms", "step_duration_ms"]

/-- The positive numbers of settings with their keys. -/
def scalars (s : Settings α) : List (String × α) := [
  ("canvas_scale", s.canvasScale),
  ("play_step_size", s.playStepSize),
  ("animation_duration_ms", s.animationDuration),
  ("step_duration_ms", s.stepDuration)]

/-- The styles of settings with their keys. -/
def styles (s : Settings α) : List (String × String) := [
  ("default_fill", s.defaults.fill),
  ("default_stroke", s.defaults.stroke),
  ("forward_start_frame_color", s.forwardStartColor),
  ("forward_current_frame_color", s.forwardCurrentColor),
  ("backward_start_frame_color", s.backwardStartColor),
  ("backward_current_frame_color", s.backwardCurrentColor)]

/-- The positive numbers stand among the named values. -/
theorem get?_fields (s : Settings α) :
    ∀ entry ∈ s.scalars, s.fields.get? entry.1 = some (.real entry.2) := by
  simp only [scalars, List.forall_mem_cons]
  refine ⟨?_, ?_, ?_, ?_, fun _ h => (by cases h)⟩ <;> simp [fields, Fields.get?, Value.real]

/-- The keys of the positive numbers are the same in all settings. -/
theorem mem_positiveKeys (s : Settings α) {key : String} :
    key ∈ positiveKeys ↔ ∃ x, (key, x) ∈ s.scalars := by
  have hkeys : s.scalars.map Prod.fst = positiveKeys := rfl
  rw [← hkeys, List.mem_map]
  exact ⟨fun ⟨⟨_, x⟩, hx, hkey⟩ => ⟨x, hkey ▸ hx⟩, fun ⟨x, hx⟩ => ⟨(key, x), hx, rfl⟩⟩

/-- What the settings hold for the key of a positive number is one of their scalars. -/
theorem mem_scalars_of_get? (s : Settings α) {key : String} (hkey : key ∈ positiveKeys)
    {v : Value α} (hv : s.fields.get? key = some v) : ∃ x, v = .real x ∧ (key, x) ∈ s.scalars := by
  obtain ⟨x, hx⟩ := (mem_positiveKeys s).mp hkey
  rw [get?_fields s _ hx] at hv
  exact ⟨x, (Option.some.inj hv).symm, hx⟩

/-- A value stands in the table that replaces others, or stood there before. -/
theorem mem_of_replaced : ∀ {overrides fields fields' : Fields α} {key : String} {v : Value α},
    replaced overrides fields = .ok fields' → fields'.get? key = some v →
      (key, v) ∈ overrides ∨ fields.get? key = some v
  | [], _, _, _, _, h, hv => by
    cases h
    exact .inr hv
  | (name, value) :: rest, fields, fields', key, v, h, hv => by
    unfold replaced at h
    rw [List.foldlM_cons] at h
    dsimp only at h
    split at h
    · have hrest : replaced rest (fields.put name value) = .ok fields' := h
      rcases mem_of_replaced hrest hv with hmem | hget
      · exact .inl (List.mem_cons_of_mem _ hmem)
      · rw [Fields.get?_put] at hget
        split at hget
        · rename_i hname
          cases hget
          exact .inl (hname ▸ List.mem_cons_self)
        · exact .inr hget
    · cases h

/-- An unknown key is the only reason to refuse a replacement. -/
theorem replaced_failsWith : ∀ (overrides fields : Fields α),
    FailsWith (fun e => e.key?.isSome = true) (replaced overrides fields)
  | [], _ => FailsWith.ok _
  | (name, value) :: rest, fields => by
    unfold replaced
    rw [List.foldlM_cons]
    dsimp only
    refine FailsWith.bind ?_ fun _ => replaced_failsWith rest _
    split
    · exact FailsWith.ok _
    · exact FailsWith.error rfl

section

variable {fields : Fields α} {key : String}

theorem positiveInteger_eq_ok {n : Nat} (h : positiveInteger fields key = .ok n) : 0 < n := by
  unfold positiveInteger at h
  split at h
  · split at h
    · cases h
      omega
    · cases h
  · cases h

theorem style_eq_ok {style : String} (h : Settings.style fields key = .ok style) :
    Rgba.isStyle style = true := by
  unfold Settings.style at h
  split at h
  · split at h
    · rename_i hstyle
      cases h
      exact hstyle
    · cases h
  · cases h

end

variable [Scalar α] {fields : Fields α} {key : String}

theorem positive_eq_ok {x : α} (h : positive fields key = .ok x) :
    ∃ n, fields.get? key = some (.number n) ∧ n.toScalar? = .ok x ∧ ¬ x ≤ zero := by
  unfold positive at h
  split at h
  · rename_i n hn
    obtain ⟨y, hy, h⟩ := bind_eq_ok.mp h
    split at h
    · cases h
    · rename_i hle
      cases h
      exact ⟨n, hn, mapError_eq_ok.mp hy, hle⟩
  · cases h

/-- What accepted values satisfy. -/
structure Accepts (fields : Fields α) (s : Settings α) : Prop where
  canvasSize : 0 < s.canvasSize
  /-- A positive number is the one that is given, and is not at most zero. -/
  scalar : ∀ entry ∈ s.scalars, ∃ n, fields.get? entry.1 = some (.number n) ∧
    n.toScalar? = .ok entry.2 ∧ ¬ entry.2 ≤ zero
  style : ∀ entry ∈ s.styles, Rgba.isStyle entry.2 = true

/-- **What accepted values satisfy.** -/
theorem ofFields_eq_ok {s : Settings α} (h : ofFields fields = .ok s) : Accepts fields s := by
  obtain ⟨canvasSize, hcanvasSize, h⟩ := bind_eq_ok.mp h
  obtain ⟨canvasScale, hcanvasScale, h⟩ := bind_eq_ok.mp h
  obtain ⟨playStepSize, hplayStepSize, h⟩ := bind_eq_ok.mp h
  obtain ⟨animationDuration, hanimationDuration, h⟩ := bind_eq_ok.mp h
  obtain ⟨stepDuration, hstepDuration, h⟩ := bind_eq_ok.mp h
  obtain ⟨_, -, h⟩ := bind_eq_ok.mp h
  obtain ⟨_, -, h⟩ := bind_eq_ok.mp h
  obtain ⟨_, -, h⟩ := bind_eq_ok.mp h
  obtain ⟨fill, hfill, h⟩ := bind_eq_ok.mp h
  obtain ⟨stroke, hstroke, h⟩ := bind_eq_ok.mp h
  obtain ⟨forwardStart, hforwardStart, h⟩ := bind_eq_ok.mp h
  obtain ⟨forwardCurrent, hforwardCurrent, h⟩ := bind_eq_ok.mp h
  obtain ⟨backwardStart, hbackwardStart, h⟩ := bind_eq_ok.mp h
  obtain ⟨backwardCurrent, hbackwardCurrent, h⟩ := bind_eq_ok.mp h
  cases h
  refine ⟨positiveInteger_eq_ok hcanvasSize, ?_, ?_⟩
  · simp only [scalars, List.forall_mem_cons]
    exact ⟨positive_eq_ok hcanvasScale, positive_eq_ok hplayStepSize,
      positive_eq_ok hanimationDuration, positive_eq_ok hstepDuration, fun _ h => (by cases h)⟩
  · simp only [styles, List.forall_mem_cons]
    exact ⟨style_eq_ok hfill, style_eq_ok hstroke, style_eq_ok hforwardStart,
      style_eq_ok hforwardCurrent, style_eq_ok hbackwardStart, style_eq_ok hbackwardCurrent,
      fun _ h => (by cases h)⟩

/-- Why values are refused: the error names a key, or an integer beyond the scalars stands for a
positive number. -/
def Refuses (fields : Fields α) (e : SettingsError) : Prop :=
  e.key?.isSome = true ∨ e = .arithmetic .tooLarge ∧
    ∃ key ∈ positiveKeys, ∃ n, fields.get? key = some (.int n) ∧ holds (α := α) n = false

theorem positiveInteger_failsWith (fields : Fields α) (key : String) :
    FailsWith (Refuses fields) (positiveInteger fields key) := by
  unfold positiveInteger
  split
  · split
    · exact FailsWith.ok _
    · exact FailsWith.error (.inl rfl)
  · exact FailsWith.error (.inl rfl)

theorem positive_failsWith (fields : Fields α) (hkey : key ∈ positiveKeys) :
    FailsWith (Refuses fields) (positive fields key) := by
  unfold positive
  split
  · rename_i n hn
    refine FailsWith.bind ?_ fun x => ?_
    · cases n with
      | int n =>
        show FailsWith _ ((ofInt? n).mapError SettingsError.arithmetic)
        unfold ofInt?
        split
        · exact FailsWith.ok _
        · rename_i hlarge
          exact FailsWith.error
            (.inr ⟨rfl, key, hkey, n, hn, Bool.eq_false_of_not_eq_true hlarge⟩)
      | real x => exact FailsWith.ok _
    · split
      · exact FailsWith.error (.inl rfl)
      · exact FailsWith.ok _
  · exact FailsWith.error (.inl rfl)

theorem flag_failsWith (fields : Fields α) (key : String) :
    FailsWith (Refuses fields) (flag fields key) := by
  unfold flag
  split
  · exact FailsWith.ok _
  · exact FailsWith.error (.inl rfl)

theorem style_failsWith (fields : Fields α) (key : String) :
    FailsWith (Refuses fields) (style fields key) := by
  unfold Settings.style
  split
  · split
    · exact FailsWith.ok _
    · exact FailsWith.error (.inl rfl)
  · exact FailsWith.error (.inl rfl)

/-- **Which errors refuse values.** -/
theorem ofFields_failsWith (fields : Fields α) :
    FailsWith (Refuses fields) (ofFields fields) := by
  refine (positiveInteger_failsWith fields _).bind fun _ => ?_
  refine (positive_failsWith fields (by decide)).bind fun _ => ?_
  refine (positive_failsWith fields (by decide)).bind fun _ => ?_
  refine (positive_failsWith fields (by decide)).bind fun _ => ?_
  refine (positive_failsWith fields (by decide)).bind fun _ => ?_
  iterate 3 refine (flag_failsWith fields _).bind fun _ => ?_
  iterate 6 refine (style_failsWith fields _).bind fun _ => ?_
  exact FailsWith.ok _

/-! ## Settings made by tables -/

/-- A number is given for a key in one of the tables. -/
def Given (tables : List (Fields α)) (key : String) (n : Number α) : Prop :=
  ∃ table ∈ tables, (key, .number n) ∈ table

/-- The settings come from the default ones by tables, of which the last one stands first. -/
inductive Made : List (Fields α) → Settings α → Prop
  | default : Made [] default
  | overridden {tables : List (Fields α)} {base s : Settings α} {overrides : Fields α} :
    Made tables base → base.overridden overrides = .ok s → Made (overrides :: tables) s

/-- The settings are as they should be, but for numbers that are not finite and that one of the
tables gives. -/
structure Sound (tables : List (Fields α)) (s : Settings α) : Prop where
  canvasSize : 0 < s.canvasSize
  scalar : ∀ entry ∈ s.scalars, isFinite entry.2 = true ∧ zero < entry.2 ∨
    isFinite entry.2 = false ∧ ¬ entry.2 ≤ zero ∧ Given tables entry.1 (.real entry.2)
  style : ∀ entry ∈ s.styles, Rgba.isStyle entry.2 = true

/-- An error that refuses a table names a key, or the table gives an integer beyond the scalars for
a positive number. -/
theorem overridden_failsWith (base : Settings α) (overrides : Fields α) :
    FailsWith (fun e => e.key?.isSome = true ∨ e = .arithmetic .tooLarge ∧
        ∃ key ∈ positiveKeys, ∃ n, (key, .int n) ∈ overrides ∧ holds (α := α) n = false)
      (base.overridden overrides) := by
  intro e h
  rcases bind_eq_error.mp h with hreplaced | ⟨fields, hreplaced, hfields⟩
  · exact .inl (replaced_failsWith overrides base.fields e hreplaced)
  · rcases ofFields_failsWith fields e hfields with hkey | ⟨rfl, key, hkey, n, hn, hlarge⟩
    · exact .inl hkey
    · refine .inr ⟨rfl, key, hkey, n, ?_, hlarge⟩
      rcases mem_of_replaced hreplaced hn with hmem | hget
      · exact hmem
      · obtain ⟨_, hreal, -⟩ := mem_scalars_of_get? base hkey hget
        cases hreal

/-! ## Settings in doubles -/

theorem sound_default : Sound [] (default : Settings Float) where
  canvasSize := by decide
  scalar := by
    simp only [scalars, List.forall_mem_cons]
    refine ⟨.inl ?_, .inl ?_, .inl ?_, .inl ?_, fun _ h => (by cases h)⟩ <;> decide +kernel
  style := by decide +kernel

/-- A finite number that is not at most zero is positive. -/
theorem zero_lt_of_isFinite {x : Float} (hfinite : isFinite x = true) (h : ¬ x ≤ zero) :
    zero < x := by
  obtain ⟨r, hr⟩ := Binary64.isFinite_iff.mp hfinite
  rw [Binary64.le_iff hr Binary64.toRat?_zero] at h
  exact (Binary64.lt_iff Binary64.toRat?_zero hr).mpr (not_le.mp h)

/-- An integer is read as a finite double. -/
theorem isFinite_of_ofInt? {n : Int} {x : Float} (h : ofInt? n = .ok x) : isFinite x = true := by
  unfold ofInt? at h
  split at h
  · rename_i hholds
    cases h
    exact Binary64.isFinite_iff.mpr (Binary64.exists_toRat?_ofInt hholds)
  · cases h

/-- **One table keeps the settings sound.** -/
theorem Sound.overridden {tables : List (Fields Float)} {base s : Settings Float}
    {overrides : Fields Float} (hbase : Sound tables base)
    (h : base.overridden overrides = .ok s) : Sound (overrides :: tables) s := by
  obtain ⟨fields, hreplaced, hfields⟩ := bind_eq_ok.mp h
  have haccepts := ofFields_eq_ok hfields
  refine ⟨haccepts.canvasSize, fun entry hentry => ?_, haccepts.style⟩
  obtain ⟨n, hn, hread, hpositive⟩ := haccepts.scalar entry hentry
  cases hfinite : isFinite entry.2 with
  | true => exact .inl ⟨rfl, zero_lt_of_isFinite hfinite hpositive⟩
  | false =>
    refine .inr ⟨rfl, hpositive, ?_⟩
    cases n with
    | int n =>
      rw [isFinite_of_ofInt? hread] at hfinite
      cases hfinite
    | real x =>
      cases hread
      rcases mem_of_replaced hreplaced hn with hmem | hget
      · exact ⟨overrides, List.mem_cons_self, hmem⟩
      · -- it has been there before, and one of the earlier tables gives it
        have hkey : entry.1 ∈ positiveKeys := (mem_positiveKeys s).mpr ⟨entry.2, hentry⟩
        obtain ⟨x, hx, hmem⟩ := mem_scalars_of_get? base hkey hget
        cases hx
        rcases hbase.scalar _ hmem with ⟨hfinite', -⟩ | ⟨-, -, table, htable, hgiven⟩
        · rw [hfinite] at hfinite'
          cases hfinite'
        · exact ⟨table, List.mem_cons_of_mem _ htable, hgiven⟩

/-- **All settings that are made are sound.** -/
theorem Made.sound {tables : List (Fields Float)} {s : Settings Float} (h : Made tables s) :
    Sound tables s := by
  induction h with
  | default => exact sound_default
  | overridden _ h ih => exact ih.overridden h

/-! ## Playing with settings -/

section

variable {σ : Type} {view : View Float σ}

/-- The range of a timeline is never empty. -/
theorem range_timeline (n : Nat) :
    (!((Number.real (zero : Float)).le (.real (ofInt n))) &&
      (Number.real (ofInt n)).le (.real (zero : Float))) = false := by
  have hle : (Number.real (zero : Float)).le (.real (ofInt n)) = true :=
    decide_eq_true (Binary64.zero_le_ofInt n)
  rw [hle]
  rfl

/-- A view whose step size is not finite cannot be played. -/
theorem scheduler_eq_error (hfinite : isFinite view.settings.playStepSize = false) :
    view.scheduler = .error .stepSize := by
  have hstep : Scheduler.isStepSize (.real view.settings.playStepSize) = .ok false := by
    show Except.ok (isFinite view.settings.playStepSize && _) = _
    rw [hfinite]
    rfl
  unfold View.scheduler Scheduler.ofSetup
  simp only [range_timeline, hstep]
  rfl

/-- **A view with a positive step size can be played.** -/
theorem scheduler_eq_ok (hfinite : isFinite view.settings.playStepSize = true)
    (hpositive : zero < view.settings.playStepSize) :
    ∃ scheduler, view.scheduler = .ok scheduler := by
  have hstep : Scheduler.isStepSize (.real view.settings.playStepSize) = .ok true := by
    obtain ⟨r, hr⟩ := Binary64.isFinite_iff.mp hfinite
    have hr0 : 0 < r := (Binary64.lt_iff Binary64.toRat?_zero hr).mp hpositive
    have hceil : Scalar.ceil view.settings.playStepSize = .ok r.ceil := by
      show (Binary64.toRat? _).map Rat.ceil = _
      rw [hr]
      rfl
    have hle : (Number.real view.settings.playStepSize).le (.int 0) = false := by
      simp only [Number.le, hceil]
      exact decide_eq_false fun h => absurd (Rat.ceil_le_iff.mp h) (by simpa using hr0)
    show Except.ok (isFinite view.settings.playStepSize && _) = _
    rw [hfinite, hle]
    rfl
  unfold View.scheduler Scheduler.ofSetup
  simp only [range_timeline, hstep]
  exact ⟨_, rfl⟩

end

/-- **What becomes of a table.** It is refused by an error that names a key, or by an integer beyond
the doubles for a positive number. Or the settings are sound: the size is a positive count, the
styles denote colours, and the positive numbers are finite and greater than zero, but for those that
a table gives as infinite or as no number. Every view with these settings can be played, unless the
step size is such a number. -/
theorem overridden_sound {tables : List (Fields Float)} {base : Settings Float}
    (hbase : Made tables base) (overrides : Fields Float) :
    (∃ e, base.overridden overrides = .error e ∧
      (e.key?.isSome = true ∨ e = .arithmetic .tooLarge ∧
        ∃ key ∈ positiveKeys, ∃ n, (key, .int n) ∈ overrides ∧ holds (α := Float) n = false)) ∨
    ∃ s, base.overridden overrides = .ok s ∧ Sound (overrides :: tables) s ∧
      ∀ {σ : Type} {view : View Float σ}, view.settings = s →
        (isFinite s.playStepSize = true → ∃ scheduler, view.scheduler = .ok scheduler) ∧
        (isFinite s.playStepSize = false → view.scheduler = .error .stepSize) := by
  cases h : base.overridden overrides with
  | error e => exact .inl ⟨e, rfl, overridden_failsWith base overrides e h⟩
  | ok s =>
    have hsound := hbase.sound.overridden h
    refine .inr ⟨s, rfl, hsound, ?_⟩
    rintro σ view rfl
    refine ⟨fun hfinite => ?_, scheduler_eq_error⟩
    have hstep : ("play_step_size", view.settings.playStepSize) ∈ view.settings.scalars :=
      List.mem_cons_of_mem _ List.mem_cons_self
    rcases hsound.scalar _ hstep with ⟨-, hpositive⟩ | ⟨hinfinite, -⟩
    · exact scheduler_eq_ok hfinite hpositive
    · rw [hfinite] at hinfinite
      cases hinfinite

/-- A table that gives no number for the step size. -/
def undefinedStep : Fields Float := [("play_step_size", .real (0 / 0))]

/-- After that table, one that gives a size keeps the step size, and one that gives a step size
mends it. -/
theorem overridden_sound_undefined :
    ∃ base, default.overridden undefinedStep = .ok base ∧ Made [undefinedStep] base ∧
      (∃ s, base.overridden [("canvas_size", .int 3)] = .ok s ∧
        Sound [[("canvas_size", .int 3)], undefinedStep] s ∧
        ∀ {σ : Type} {view : View Float σ}, view.settings = s →
          view.scheduler = .error .stepSize) ∧
      ∃ s, base.overridden [("play_step_size", .int 1)] = .ok s ∧
        Sound [[("play_step_size", .int 1)], undefinedStep] s ∧
        ∀ {σ : Type} {view : View Float σ}, view.settings = s →
          ∃ scheduler, view.scheduler = .ok scheduler := by
  have hcheck : ((default.overridden undefinedStep).toOption.bind fun base =>
      (base.overridden [("canvas_size", .int 3)]).toOption.bind fun s =>
        (base.overridden [("play_step_size", .int 1)]).toOption.map fun s' =>
          (isFinite s.playStepSize, isFinite s'.playStepSize)) = some (false, true) := by
    decide +kernel
  obtain ⟨base, hbase, hcheck⟩ := Option.bind_eq_some_iff.mp hcheck
  obtain ⟨s, hs, hcheck⟩ := Option.bind_eq_some_iff.mp hcheck
  obtain ⟨s', hs', hcheck⟩ := Option.map_eq_some_iff.mp hcheck
  rw [toOption_eq_some] at hbase hs hs'
  have hmade : Made [undefinedStep] base := Made.default.overridden hbase
  refine ⟨base, hbase, hmade, ⟨s, hs, ?_⟩, s', hs', ?_⟩
  · rcases overridden_sound hmade [("canvas_size", .int 3)] with ⟨e, he, -⟩ | ⟨t, ht, hsound, hplay⟩
    · rw [hs] at he
      cases he
    · cases hs.symm.trans ht
      exact ⟨hsound, fun hview => (hplay hview).2 (congrArg Prod.fst hcheck)⟩
  · rcases overridden_sound hmade [("play_step_size", .int 1)] with
      ⟨e, he, -⟩ | ⟨t, ht, hsound, hplay⟩
    · rw [hs'] at he
      cases he
    · cases hs'.symm.trans ht
      exact ⟨hsound, fun hview => (hplay hview).1 (congrArg Prod.snd hcheck)⟩

/-- **The checks let a step size pass that is no number**, with which no view can be played, **and
an integer beyond the doubles is not refused by its key**. -/
theorem overridden_unsound :
    (∃ s, default.overridden undefinedStep = .ok s ∧ isFinite s.playStepSize = false ∧
      ∀ {σ : Type} {view : View Float σ}, view.settings = s →
        view.scheduler = .error .stepSize) ∧
    (default : Settings Float).overridden [("canvas_scale", .int (10 ^ 400))] =
      .error (.arithmetic .tooLarge) := by
  have hcheck : ((default.overridden undefinedStep).toOption.map fun s =>
      isFinite s.playStepSize) = some false := by
    decide +kernel
  obtain ⟨s, hs, hfinite⟩ := Option.map_eq_some_iff.mp hcheck
  refine ⟨⟨s, toOption_eq_some.mp hs, hfinite, fun hview => ?_⟩, by decide +kernel⟩
  exact scheduler_eq_error (hview ▸ hfinite)

end Settings

end CanvasScript
