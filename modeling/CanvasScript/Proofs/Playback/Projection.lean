import CanvasScript.Proofs.Playback.Trajectory

/-!
# The grid as a projection

Without rounding errors the grid of a scheduler (`quantize`) is a projection of its range: values go
to points in their order, and points stay. This holds for every range that is not empty and every
grid, also where a step is longer than the range, or shorter than the decimals of a point.

* `ofSetup_eq`: **settings with such a range and such a grid have a scheduler**.
* `Projects`: what it says that values are projected to the grid. `Regular.projects`: **they are**.
* `run_setValue_self`: a scheduler on its grid stays where it is when it is moved to its own value.
* `quantize_projects`: **so it is in every state that a scheduler gets into**.

Out of scope: the rounding of doubles.
-/

namespace CanvasScript.Scheduler

open Scalar
open scoped Exact

variable {K : Type} [Field K] [LinearOrder K] [IsStrictOrderedRing K] [FloorRing K]
  [ScalarFunctions K] {setup : Setup K} {ε σ : Type}

/-! ## Settings -/

/-- The scheduler of some settings, idle at its minimum. -/
def start (setup : Setup K) : Scheduler K where
  minimum := setup.minimum.toScalar
  maximum := setup.maximum.toScalar
  animationDuration := setup.animationDuration.toScalar
  stepDuration := setup.stepDuration.toScalar
  reverses := setup.reverses
  stepSize := setup.stepSize.map Number.toScalar
  value := setup.minimum.toScalar
  activity := .idle

/-- A positive number is a step size. -/
theorem isStepSize_of_pos {n : Number K} (h : 0 < n.toScalar) : isStepSize n = .ok true := by
  have hfinite : n.isFinite = .ok true := by cases n <;> rfl
  have hle : n.le (.int 0) = false := by
    refine Bool.eq_false_iff.mpr fun hle => not_le.mpr h ?_
    exact ((Exact.le_iff n (.int 0)).mp hle).trans_eq Int.cast_zero
  unfold isStepSize
  rw [hfinite, hle]
  rfl

omit [IsStrictOrderedRing K] in
/-- What is read without a check is what the settings say. -/
theorem readSetup_eq (setup : Setup K) : readSetup setup = .ok (start setup) := by
  have hread (n : Number K) : n.toScalar?.mapError SetupError.arithmetic = .ok n.toScalar :=
    congrArg _ (Exact.toScalar?_eq n)
  have hstep : (setup.stepSize.mapM fun n => n.toScalar?.mapError SetupError.arithmetic) =
      .ok (setup.stepSize.map Number.toScalar) := by
    cases setup.stepSize with
    | none => rfl
    | some n => exact congrArg (Except.map some) (hread n)
  refine bind_eq_ok.mpr ⟨_, hread _, bind_eq_ok.mpr ⟨_, hread _, bind_eq_ok.mpr ⟨_, hread _, ?_⟩⟩⟩
  exact bind_eq_ok.mpr ⟨_, hread _, bind_eq_ok.mpr ⟨_, hstep, rfl⟩⟩

/-- **Settings with a range that is not empty and with steps that lead forward have a scheduler.**
-/
theorem ofSetup_eq (hrange : setup.minimum.toScalar ≤ setup.maximum.toScalar)
    (hstep : ∀ n, setup.stepSize = some n → 0 < n.toScalar) :
    ofSetup setup = .ok (start setup) := by
  have hordered :
      ¬ (!(setup.minimum.le setup.maximum) && setup.maximum.le setup.minimum) = true := by
    rw [(Exact.le_iff _ _).mpr hrange]
    exact Bool.false_ne_true
  rw [← readSetup_eq]
  refine (if_neg hordered).trans ?_
  obtain ⟨minimum, maximum, animationDuration, stepDuration, reverses, stepSize⟩ := setup
  cases stepSize with
  | none => rfl
  | some n =>
    have hpassed := isStepSize_of_pos (hstep n rfl)
    show ((isStepSize n).mapError SetupError.arithmetic >>= _) = _
    rw [hpassed]
    rfl

/-! ## The projection -/

/-- Values are projected to the grid: in their order, into the range, and points stay. -/
structure Projects (s : Scheduler K) : Prop where
  mono : ∀ {v w}, v ≤ w → ∃ a b, s.quantize v = .ok a ∧ s.quantize w = .ok b ∧ a ≤ b
  mem : ∀ v, ∃ a, s.quantize v = .ok a ∧ s.minimum ≤ a ∧ a ≤ s.maximum
  minimum : s.quantize s.minimum = .ok s.minimum
  maximum : s.quantize s.maximum = .ok s.maximum
  again : ∀ v, ∃ a, s.quantize v = .ok a ∧ s.quantize a = .ok a

variable {s : Scheduler K}

/-- **Values are projected to the grid**, whatever the range and the steps are. -/
theorem Regular.projects (h : s.Regular) : s.Projects where
  mono {v w} hvw := ⟨_, _, quantize_eq s v, quantize_eq s w, h.point_mono hvw⟩
  mem v := ⟨_, quantize_eq s v, h.point_mem v⟩
  minimum := (quantize_eq s _).trans (congrArg _ (h.point_of_end (.inl rfl)))
  maximum := (quantize_eq s _).trans (congrArg _ (h.point_of_end (.inr rfl)))
  again v := ⟨_, quantize_eq s v, (quantize_eq s _).trans (congrArg _ (h.point_point v))⟩

omit [IsStrictOrderedRing K] in
/-- **A scheduler that is moved to where it stands does not move**, also where the listener refuses
its value. -/
theorem run_setValue_self (hregular : s.Regular) (hgrid : s.point s.value = s.value)
    (listener : Listener ε σ K) (notes : σ) :
    ((setValue listener (.ok s.value)) (s, notes)).2.1 = withActivity .idle s := by
  have hrun : (setValue listener (.ok s.value)) (s, notes) =
      (present listener (s.clamp s.value)) (withActivity .idle s, notes) := rfl
  have hquantize : (withActivity .idle s).quantize (s.clamp s.value) = .ok s.value := by
    refine (quantize_eq s _).trans (congrArg _ ?_)
    rw [hregular.point_clamp, hgrid]
  rw [hrun]
  rcases hlistener : (listener s.value) notes with ⟨error | _, notes'⟩
  · rw [run_present_refused hquantize hlistener]
  · rw [run_present_accepted hquantize hlistener]
    rfl

/-- **The grid of a scheduler is a projection of its range**, and a scheduler that is moved to where
it stands does not move. This holds of all settings with a range that is not empty and with steps
that lead forward, in every state that their scheduler gets into. -/
theorem quantize_projects [ScalarTexts K]
    (hrange : setup.minimum.toScalar ≤ setup.maximum.toScalar)
    (hstep : ∀ n, setup.stepSize = some n → 0 < n.toScalar) (listener : Listener ε σ K)
    (operations : List (Operation K)) (notes : σ) :
    ∃ s₀ s notes', ofSetup setup = .ok s₀ ∧
      runAll listener operations (s₀, notes) = (s, notes') ∧
      s.minimum = setup.minimum.toScalar ∧ s.maximum = setup.maximum.toScalar ∧
      s.stepSize = setup.stepSize.map Number.toScalar ∧ s.Projects ∧
      ∀ {ε' σ' : Type} (other : Listener ε' σ' K) (others : σ'),
        ((setValue other (.ok s.value)) (s, others)).2.1 = withActivity .idle s := by
  have hsetup := ofSetup_eq hrange hstep
  rcases hreached : runAll listener operations (start setup, notes) with ⟨s, notes'⟩
  obtain ⟨hregular, hgrid⟩ := onGrid_of_runAll hsetup hreached
  obtain ⟨hsettings, -⟩ := settings_of_runAll hsetup hreached
  refine ⟨start setup, s, notes', hsetup, hreached, ?_, ?_, ?_, hregular.projects,
    run_setValue_self hregular hgrid⟩
  · rw [hsettings]
    rfl
  · rw [hsettings]
    rfl
  · rw [hsettings]
    rfl

/-- A range that starts between two decimals, on steps that are shorter than the decimals. -/
def fineSetup : Setup Rat :=
  { Setup.default with
    minimum := .real (1 / 3)
    maximum := .int 2
    stepSize := some (.real (7 / 10000000000)) }

/-- A listener that refuses the second value; it counts what it is told. -/
def refuseSecond : Listener Unit Nat Rat := fun _ count =>
  (if count = 1 then .error () else .ok (), count + 1)

/-- A step is under way and its first value was refused. -/
theorem quantize_projects_fine :
    (1 / 3 : Rat) ≤ 2 ∧ (0 : Rat) < 7 / 10000000000 ∧
      ∃ s₀ s notes', ofSetup fineSetup = .ok s₀ ∧
        runAll refuseSecond [.setValue (.ok (3 / 7)), .stepForward (some (.ok 0)), .tick (.ok 300)]
          (s₀, 0) = (s, notes') ∧
        s.minimum = 1 / 3 ∧ s.maximum = 2 ∧ s.stepSize = some (7 / 10000000000) ∧ s.Projects ∧
        ∀ {ε' σ' : Type} (other : Listener ε' σ' Rat) (others : σ'),
          ((setValue other (.ok s.value)) (s, others)).2.1 = withActivity .idle s := by
  have hrange : fineSetup.minimum.toScalar ≤ fineSetup.maximum.toScalar := by
    show (1 / 3 : Rat) ≤ 2
    norm_num
  have hstep : (0 : Rat) < 7 / 10000000000 := by norm_num
  have hsteps (n : Number Rat) (hn : fineSetup.stepSize = some n) : 0 < n.toScalar :=
    Option.some.inj hn ▸ hstep
  exact ⟨hrange, hstep, quantize_projects hrange hsteps refuseSecond _ 0⟩

end CanvasScript.Scheduler
