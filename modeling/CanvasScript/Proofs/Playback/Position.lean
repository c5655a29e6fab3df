import CanvasScript.Proofs.Binary64.Value
import CanvasScript.Proofs.Playback.Operation
import CanvasScript.Proofs.Scalar.Laws

/-!
# The position of a scheduler

A scheduler stands where it was last shown (`_render`). Whatever is asked of it, and whichever
values its listener refuses, its value lies in its range and is the last one that was accepted.

* `Listener.logged` writes down the values that a listener accepts, and changes nothing else.
* `Positioned` is what holds of a scheduler beside such a log.

Results:
* `follows_logged`: a change of the activity and a presented value keep it, also where the listener
  fails. So every operation does.
* `runAll_position`: **so it holds after every run** of a scheduler whose range is not empty.
-/

namespace CanvasScript

variable {α ε σ : Type}

/-- The listener, which also writes down the values it accepts. -/
def Listener.logged (listener : Listener ε σ α) : Listener ε (σ × List α) α :=
  fun v (notes, log) =>
    match (listener v).run notes with
    | (.ok (), notes) => (.ok (), (notes, log ++ [v]))
    | (.error error, notes) => (.error error, (notes, log))

theorem Listener.run_logged_ok {listener : Listener ε σ α} {v : α} {notes notes' : σ}
    (h : (listener v) notes = (.ok (), notes')) (log : List α) :
    (listener.logged v) (notes, log) = (.ok (), (notes', log ++ [v])) := by
  have hrun : (listener v).run notes = (.ok (), notes') := h
  unfold logged
  simp only [hrun]

theorem Listener.run_logged_error {listener : Listener ε σ α} {v : α} {notes notes' : σ} {error : ε}
    (h : (listener v) notes = (.error error, notes')) (log : List α) :
    (listener.logged v) (notes, log) = (.error error, (notes', log)) := by
  have hrun : (listener v).run notes = (.error error, notes') := h
  unfold logged
  simp only [hrun]

namespace Scheduler

section

variable [Scalar α] [OrderedScalar α] {lo hi : α}

/-- A value on the grid lies in the range, also where rounding led out of it. -/
theorem mem_of_quantize {s : Scheduler α} (h : s.minimum ≤ s.maximum) {v w : α}
    (hw : s.quantize v = .ok w) : s.minimum ≤ w ∧ w ≤ s.maximum := by
  have hclamp (u : α) : s.minimum ≤ s.clamp u ∧ s.clamp u ≤ s.maximum := Scalar.mem_clamp h u
  unfold quantize at hw
  cases hstep : s.stepSize with
  | none =>
    rw [hstep] at hw
    cases hw
    exact hclamp v
  | some step =>
    rw [hstep] at hw
    dsimp only at hw
    split at hw
    · cases hw
      exact hclamp v
    · obtain ⟨steps, -, hw⟩ := bind_eq_ok.mp hw
      cases hw
      exact hclamp _

/-- A scheduler of the range from `lo` to `hi` stands at the last accepted value. -/
structure Positioned (lo hi : α) (s : Scheduler α) (log : List α) : Prop where
  minimum : s.minimum = lo
  maximum : s.maximum = hi
  mem : lo ≤ s.value ∧ s.value ≤ hi
  value : s.value = log.getLastD lo

/-- **What keeps the position**: an accepted value becomes the last one, and after a refused one the
value before stays. -/
theorem follows_logged (h : lo ≤ hi) (listener : Listener ε σ α) :
    Follows (fun s notes logged => logged.1 = notes ∧ Positioned lo hi s logged.2)
      listener listener.logged where
  activity _ hR := ⟨hR.1, hR.2.minimum, hR.2.maximum, hR.2.mem, hR.2.value⟩
  present v := by
    rintro s _ ⟨notes, log⟩ ⟨rfl, hpos⟩
    cases hquantize : s.quantize v with
    | error fault =>
      exact ⟨_, s, _, _, run_present_error hquantize, run_present_error hquantize, rfl, hpos⟩
    | ok w =>
      rcases hlistener : (listener w) notes with ⟨error | _, notes'⟩
      · refine ⟨_, s, _, _, run_present_refused hquantize hlistener,
          run_present_refused hquantize (Listener.run_logged_error hlistener log), rfl, hpos⟩
      · have hmem := mem_of_quantize (hpos.minimum ▸ hpos.maximum ▸ h) hquantize
        rw [hpos.minimum, hpos.maximum] at hmem
        refine ⟨_, _, _, _, run_present_accepted hquantize hlistener,
          run_present_accepted hquantize (Listener.run_logged_ok hlistener log), rfl, ?_⟩
        exact ⟨hpos.minimum, hpos.maximum, hmem, List.getLastD_concat.symm⟩

end

section

variable [Scalar α]

/-- A scheduler is the one of some settings, which have passed the checks. -/
structure IsSetUp (setup : Setup α) (s : Scheduler α) : Prop where
  range : (!(setup.minimum.le setup.maximum) && setup.maximum.le setup.minimum) = false
  isStep : ∀ {n}, setup.stepSize = some n → isStepSize n = .ok true
  minimum : setup.minimum.toScalar? = .ok s.minimum
  maximum : setup.maximum.toScalar? = .ok s.maximum
  step : ∀ {step}, s.stepSize = some step → ∃ n, setup.stepSize = some n ∧ n.toScalar? = .ok step
  value : s.value = s.minimum

/-- The scheduler of some settings, read one after another without a check. -/
def readSetup (setup : Setup α) : Except SetupError (Scheduler α) := do
  let read (n : Number α) : Except SetupError α := n.toScalar?.mapError .arithmetic
  let minimum ← read setup.minimum
  let maximum ← read setup.maximum
  let animationDuration ← read setup.animationDuration
  let stepDuration ← read setup.stepDuration
  let stepSize ← setup.stepSize.mapM read
  return {
    minimum, maximum, animationDuration, stepDuration, stepSize
    reverses := setup.reverses
    value := minimum
    activity := .idle }

theorem isSetUp_of_readSetup {setup : Setup α} {s : Scheduler α} (h : readSetup setup = .ok s)
    (hrange : (!(setup.minimum.le setup.maximum) && setup.maximum.le setup.minimum) = false)
    (hisStep : ∀ {n}, setup.stepSize = some n → isStepSize n = .ok true) : IsSetUp setup s := by
  obtain ⟨minimum, hminimum, h⟩ := bind_eq_ok.mp h
  obtain ⟨maximum, hmaximum, h⟩ := bind_eq_ok.mp h
  obtain ⟨animationDuration, -, h⟩ := bind_eq_ok.mp h
  obtain ⟨stepDuration, -, h⟩ := bind_eq_ok.mp h
  obtain ⟨stepSize, hstepSize, h⟩ := bind_eq_ok.mp h
  cases h
  refine ⟨hrange, hisStep, mapError_eq_ok.mp hminimum, mapError_eq_ok.mp hmaximum,
    fun {step} hstep => ?_, rfl⟩
  obtain rfl : stepSize = some step := hstep
  obtain ⟨n, hn, hread⟩ := optionMapM_eq_some.mp hstepSize
  exact ⟨n, hn, mapError_eq_ok.mp hread⟩

/-- **A scheduler that is set up has passed the checks**, and holds what its settings say. -/
theorem isSetUp_of_ofSetup {setup : Setup α} {s : Scheduler α} (h : ofSetup setup = .ok s) :
    IsSetUp setup s := by
  unfold ofSetup at h
  dsimp only at h
  split at h
  · obtain ⟨_, hthrow, -⟩ := bind_eq_ok.mp h
    cases hthrow
  · rename_i hrange
    have hrange := Bool.eq_false_of_not_eq_true hrange
    split at h
    · rename_i n hn
      obtain ⟨isStep, hisStep, h⟩ := bind_eq_ok.mp h
      split at h
      · obtain ⟨_, hthrow, -⟩ := bind_eq_ok.mp h
        cases hthrow
      · rename_i hstep
        refine isSetUp_of_readSetup h hrange fun {m} hm => ?_
        rw [hn] at hm
        cases hm
        rw [mapError_eq_ok.mp hisStep]
        exact congrArg Except.ok (by simpa using hstep)
    · rename_i hnone
      exact isSetUp_of_readSetup h hrange fun {m} hm => absurd hm (hnone m)

/-- The range of a scheduler is the one of its settings, and it starts at the minimum. -/
theorem ofSetup_eq_ok {setup : Setup α} {s : Scheduler α} (h : ofSetup setup = .ok s) :
    setup.minimum.toScalar? = .ok s.minimum ∧ setup.maximum.toScalar? = .ok s.maximum ∧
      s.value = s.minimum :=
  ⟨(isSetUp_of_ofSetup h).minimum, (isSetUp_of_ofSetup h).maximum, (isSetUp_of_ofSetup h).value⟩

/-- A scheduler starts at its minimum. -/
theorem value_ofSetup {setup : Setup α} {s : Scheduler α} (h : ofSetup setup = .ok s) :
    s.value = s.minimum :=
  (ofSetup_eq_ok h).2.2

end

section

variable [Written α]

/-- **The value of a scheduler is the last one that its listener accepted**, and lies in the range.
This holds after every run, with any arguments, whichever values the listener refuses. -/
theorem runAll_position [OrderedScalar α] {setup : Setup α} {s : Scheduler α}
    (hsetup : ofSetup setup = .ok s) (hrange : s.minimum ≤ s.maximum)
    (listener : Listener ε σ α) (notes : σ) (operations : List (Operation α)) :
    ∃ s' notes' accepted,
      runAll listener operations (s, notes) = (s', notes') ∧
      runAll listener.logged operations (s, (notes, [])) = (s', (notes', accepted)) ∧
      s'.minimum = s.minimum ∧ s'.maximum = s.maximum ∧
      s'.minimum ≤ s'.value ∧ s'.value ≤ s'.maximum ∧
      s'.value = accepted.getLastD s.minimum := by
  have hmem : s.minimum ≤ s.value ∧ s.value ≤ s.maximum := by
    rw [value_ofSetup hsetup]
    exact ⟨OrderedScalar.le_self_left hrange, hrange⟩
  have hstart : Positioned s.minimum s.maximum s [] := ⟨rfl, rfl, hmem, value_ofSetup hsetup⟩
  obtain ⟨s', _, ⟨notes', accepted⟩, hrun, hlogged, rfl, hpos⟩ :=
    runAll_alike (follows_logged hrange listener) operations (n := (notes, [])) ⟨rfl, hstart⟩
  refine ⟨s', notes', accepted, hrun, hlogged, hpos.minimum, hpos.maximum, ?_⟩
  rw [hpos.minimum, hpos.maximum]
  exact ⟨hpos.mem.1, hpos.mem.2, hpos.value⟩

end

/-- A range of three steps on a grid of halves. -/
def gridSetup : Setup Float :=
  { Setup.default with maximum := .int 3, stepSize := some (.real 0.5) }

/-- A listener that refuses every third value; it counts what it is told. -/
def refuseThird : Listener Nat Nat Float := fun _ count =>
  (if count % 3 = 2 then .error count else .ok (), count + 1)

/-- A run with a value between two points of the grid, a name of no easing, a time beyond doubles
and a value that is no number. -/
def unevenRun : List (Operation Float) := [
  .setValue (.ok 1.7),
  .stepForward none,
  .tick (.ok 10),
  .tick (.ok 2000),
  .animateTo (.ok 2) (.ok 5) (.text "bounce") none,
  .play false (some (.error .tooLarge)),
  .setValue (.ok (0 / 0)),
  .last]

/-- Doubles compare like numbers, so a run with failures of every kind is one of those. -/
theorem runAll_position_uneven :
    ∃ s, ofSetup gridSetup = .ok s ∧ s.minimum ≤ s.maximum ∧ ∃ s' notes' accepted,
      runAll refuseThird unevenRun (s, 0) = (s', notes') ∧
      runAll refuseThird.logged unevenRun (s, (0, [])) = (s', (notes', accepted)) ∧
      s'.minimum = s.minimum ∧ s'.maximum = s.maximum ∧
      s'.minimum ≤ s'.value ∧ s'.value ≤ s'.maximum ∧
      s'.value = accepted.getLastD s.minimum := by
  have hrange : ((ofSetup gridSetup).map fun s => decide (s.minimum ≤ s.maximum)).toOption =
      some true := by decide +kernel
  cases hsetup : ofSetup gridSetup with
  | error error =>
    rw [hsetup] at hrange
    cases hrange
  | ok s =>
    rw [hsetup] at hrange
    have hrange : s.minimum ≤ s.maximum := of_decide_eq_true (Option.some.inj hrange)
    exact ⟨s, rfl, hrange, runAll_position hsetup hrange refuseThird 0 unevenRun⟩

end Scheduler

end CanvasScript
