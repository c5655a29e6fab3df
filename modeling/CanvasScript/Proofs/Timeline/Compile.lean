import CanvasScript.Proofs.Except
import CanvasScript.Timeline

/-!
# Steps of a compiled program

What a step of a timeline (`CompiledStep`) holds, once for all that is proved about timelines.

* `index_getElem` and `filter_index_lt`: what is numbered in order stands where its number says.
* `isStepOf_of_stepOf`: **the fields of a step, from the pen before its command**.
* `commands_stepsFrom` and `indices_stepsFrom`: **there is a step for every command, in order**.
* `exists_isStepOf`: so every step is the one of its command; its colours are those of its styles
  (`color_stepsFrom`).
-/

namespace CanvasScript

/-! ## Both paints -/

theorem PerPaint.get_set {β : Type} (both : PerPaint β) (paint other : Paint) (b : β) :
    (both.set paint b).get other = if paint = other then b else both.get other := by
  cases paint <;> cases other <;> rfl

theorem PerPaint.get_map {β γ : Type} (f : β → γ) (both : PerPaint β) (paint : Paint) :
    (both.map f).get paint = f (both.get paint) := by
  cases paint <;> rfl

theorem PerPaint.get_zipWith {β γ δ : Type} (f : β → γ → δ) (a : PerPaint β) (b : PerPaint γ)
    (paint : Paint) : (a.zipWith f b).get paint = f (a.get paint) (b.get paint) := by
  cases paint <;> rfl

theorem PerPaint.get_of_mapM {β γ ε : Type} {f : β → Except ε γ} {both : PerPaint β}
    {out : PerPaint γ} (h : both.mapM f = .ok out) (paint : Paint) :
    f (both.get paint) = .ok (out.get paint) := by
  obtain ⟨fill, hfill, h⟩ := bind_eq_ok.mp h
  obtain ⟨stroke, hstroke, h⟩ := bind_eq_ok.mp h
  cases h
  cases paint with
  | fill => exact hfill
  | stroke => exact hstroke

/-! ## Numbered in order -/

section

variable {β : Type} {index : β → Nat} {items : List β}

/-- What is numbered in order has its place for a number. -/
theorem index_getElem (hindices : items.map index = List.range' 0 items.length) {i : Nat}
    (hi : i < items.length) : index items[i] = i := by
  have := congrArg (·[i]?) hindices
  simpa [hi] using this

theorem index_lt_of_mem_take (hindices : items.map index = List.range' 0 items.length) {k : Nat}
    {b : β} (hmem : b ∈ items.take k) : index b < k := by
  obtain ⟨i, hi, rfl⟩ := List.mem_take_iff_getElem.mp hmem
  rw [index_getElem hindices]
  omega

theorem le_index_of_mem_drop (hindices : items.map index = List.range' 0 items.length) {k : Nat}
    {b : β} (hmem : b ∈ items.drop k) : k ≤ index b := by
  obtain ⟨i, hi, rfl⟩ := List.mem_drop_iff_getElem.mp hmem
  rw [index_getElem hindices]
  omega

/-- What has a number that is not before a place is not before it. -/
theorem mem_drop_of_le_index (hindices : items.map index = List.range' 0 items.length) {b : β}
    (hmem : b ∈ items) {k : Nat} (hk : k ≤ index b) : b ∈ items.drop k := by
  rcases List.mem_append.mp ((List.take_append_drop k items).symm ▸ hmem) with hbefore | hbehind
  · exact absurd (index_lt_of_mem_take hindices hbefore) (Nat.not_lt.mpr hk)
  · exact hbehind

/-- What has a number before a place is before it. -/
theorem filter_index_lt (hindices : items.map index = List.range' 0 items.length) (k : Nat) :
    items.filter (index · < k) = items.take k := by
  have hbefore : (items.take k).filter (index · < k) = items.take k :=
    List.filter_eq_self.mpr fun b hmem => decide_eq_true (index_lt_of_mem_take hindices hmem)
  have hbehind : (items.drop k).filter (index · < k) = [] :=
    List.filter_eq_nil_iff.mpr fun b hmem h =>
      absurd (of_decide_eq_true h) (Nat.not_lt.mpr (le_index_of_mem_drop hindices hmem))
  calc items.filter (index · < k)
      = (items.take k ++ items.drop k).filter (index · < k) := by rw [List.take_append_drop]
    _ = items.take k := by rw [List.filter_append, hbefore, hbehind, List.append_nil]

end

/-! ## Steps -/

variable {α : Type}

variable [Scalar α]

/-- A step is the one of a command at an index, where a pen stands before the command, and `earlier`
are the styles of the step before. -/
structure IsStepOf (defaults earlier : PerPaint String) (index : Nat) (pen : Pen α)
    (command : Command α) (step : Step α) : Prop where
  index_eq : step.index = index
  command_eq : step.command = command
  previous_eq : step.previous = pen.matrix
  matrix_eq : step.matrix = (pen.apply command).matrix
  before_eq : (pen.resolved defaults).mapM Rgba.ofStyle = .ok step.before
  after_eq : ((pen.apply command).resolved defaults).mapM Rgba.ofStyle = .ok step.after
  style_eq : step.style = command.drawnStyle ((pen.apply command).resolved defaults)
  color_eq : step.style.mapM Rgba.ofStyle = .ok step.color
  shows_eq : step.shows = step.style.zipWith (fun now old => now != old) earlier

namespace Timeline

/-- **The fields of a step.** -/
theorem isStepOf_of_stepOf {defaults earlier : PerPaint String} {index : Nat} {pen : Pen α}
    {command : Command α} {step : Step α}
    (h : stepOf defaults earlier index pen command = .ok step) :
    IsStepOf defaults earlier index pen command step := by
  obtain ⟨before, hbefore, h⟩ := bind_eq_ok.mp h
  obtain ⟨after, hafter, h⟩ := bind_eq_ok.mp h
  obtain ⟨color, hcolor, h⟩ := bind_eq_ok.mp h
  cases h
  exact ⟨rfl, rfl, rfl, rfl, hbefore, hafter, rfl, hcolor, rfl⟩

/-- The first step of a program and the others. -/
theorem stepsFrom_cons {defaults earlier : PerPaint String} {index : Nat} {pen : Pen α}
    {command : Command α} {rest : List (Command α)} {steps : List (Step α)}
    (h : stepsFrom defaults earlier index pen (command :: rest) = .ok steps) :
    ∃ step more, steps = step :: more ∧ IsStepOf defaults earlier index pen command step ∧
      stepsFrom defaults step.style (index + 1) (pen.apply command) rest = .ok more := by
  obtain ⟨step, hstep, h⟩ := bind_eq_ok.mp h
  obtain ⟨more, hmore, h⟩ := bind_eq_ok.mp h
  cases h
  exact ⟨step, more, rfl, isStepOf_of_stepOf hstep, hmore⟩

/-- **The commands of the steps are those of the program.** -/
theorem commands_stepsFrom {defaults earlier : PerPaint String} {index : Nat} {pen : Pen α} :
    ∀ {commands : List (Command α)} {steps : List (Step α)},
      stepsFrom defaults earlier index pen commands = .ok steps →
      steps.map (·.command) = commands := by
  intro commands
  induction commands generalizing earlier index pen with
  | nil =>
    intro steps h
    cases h
    rfl
  | cons command rest ih =>
    intro steps h
    obtain ⟨step, more, rfl, hstep, hmore⟩ := stepsFrom_cons h
    rw [List.map_cons, hstep.command_eq, ih hmore]

/-- **The steps are numbered in order.** -/
theorem indices_stepsFrom {defaults earlier : PerPaint String} {index : Nat} {pen : Pen α} :
    ∀ {commands : List (Command α)} {steps : List (Step α)},
      stepsFrom defaults earlier index pen commands = .ok steps →
      steps.map (·.index) = List.range' index steps.length := by
  intro commands
  induction commands generalizing earlier index pen with
  | nil =>
    intro steps h
    cases h
    rfl
  | cons command rest ih =>
    intro steps h
    obtain ⟨step, more, rfl, hstep, hmore⟩ := stepsFrom_cons h
    rw [List.map_cons, hstep.index_eq, ih hmore]
    rfl

/-- **Every step is the one of its command**, where some pen stands before it. -/
theorem exists_isStepOf {defaults earlier : PerPaint String} {index : Nat} {pen : Pen α} :
    ∀ {commands : List (Command α)} {steps : List (Step α)},
      stepsFrom defaults earlier index pen commands = .ok steps →
      ∀ step ∈ steps, ∃ earlier index pen,
        IsStepOf defaults earlier index pen step.command step := by
  intro commands
  induction commands generalizing earlier index pen with
  | nil =>
    intro steps h
    cases h
    exact fun _ hmem => nomatch hmem
  | cons command rest ih =>
    intro steps h
    obtain ⟨step, more, rfl, hstep, hmore⟩ := stepsFrom_cons h
    exact List.forall_mem_cons.mpr ⟨⟨earlier, index, pen, hstep.command_eq ▸ hstep⟩, ih hmore⟩

/-- **The colours of a step are those of its styles.** -/
theorem color_stepsFrom {defaults earlier : PerPaint String} {index : Nat} {pen : Pen α}
    {commands : List (Command α)} {steps : List (Step α)}
    (h : stepsFrom defaults earlier index pen commands = .ok steps) :
    ∀ step ∈ steps, step.style.mapM Rgba.ofStyle = .ok step.color := by
  intro step hmem
  obtain ⟨_, _, _, hstep⟩ := exists_isStepOf h step hmem
  exact hstep.color_eq

theorem indices_compile {defaults : PerPaint String} {commands : List (Command α)}
    {timeline : Timeline α} (h : Timeline.compile defaults commands = .ok timeline) :
    timeline.steps.map (·.index) = List.range' 0 timeline.length := by
  obtain ⟨steps, hsteps, h⟩ := bind_eq_ok.mp h
  obtain rfl := Except.ok.inj h
  exact indices_stepsFrom hsteps

/-- The first step of a program takes over what the pen holds. -/
theorem head_stepsFrom {defaults earlier : PerPaint String} {index : Nat} {pen : Pen α}
    {commands : List (Command α)} {steps : List (Step α)}
    (h : stepsFrom defaults earlier index pen commands = .ok steps) :
    ∀ first ∈ steps.head?, first.previous = pen.matrix ∧
      (pen.resolved defaults).mapM Rgba.ofStyle = .ok first.before := by
  intro first hfirst
  cases commands with
  | nil =>
    cases h
    cases hfirst
  | cons command rest =>
    obtain ⟨step, more, rfl, hstep, -⟩ := stepsFrom_cons h
    obtain rfl := Option.some.inj hfirst
    exact ⟨hstep.previous_eq, hstep.before_eq⟩

/-- The first step of a program stands in the frame of the start. -/
theorem previous_of_head {defaults : PerPaint String} {commands : List (Command α)}
    {timeline : Timeline α} (h : Timeline.compile defaults commands = .ok timeline)
    {step : Step α} (hstep : timeline.steps.head? = some step) :
    step.previous = Affine.identity := by
  obtain ⟨steps, hsteps, h⟩ := bind_eq_ok.mp h
  obtain rfl := Except.ok.inj h
  exact (head_stepsFrom hsteps step hstep).1

theorem length_stepsFrom {defaults earlier : PerPaint String} {index : Nat} {pen : Pen α}
    {commands : List (Command α)} {steps : List (Step α)}
    (h : stepsFrom defaults earlier index pen commands = .ok steps) :
    steps.length = commands.length := by
  rw [← commands_stepsFrom h, List.length_map]

end Timeline

end CanvasScript
