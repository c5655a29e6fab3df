import CanvasScript.Proofs.Playback.Stepping

/-!
# Failures of a scheduler

An operation of a `PlaybackScheduler` that fails leaves it idle, because it ends the animation
before anything in it can go wrong. Two operations have something to work out first: a tick reads
its time, and a step looks for the integer next to the value. Where that fails nothing was done yet,
so an animation goes on as if nothing had been asked.

* `Ends P Q x`: from an activity that `P` allows, `x` succeeds with one that `Q` allows, or it fails
  and leaves the scheduler idle. There is one rule for each construct.
* `Operation.Unguarded`: what an operation works out first cannot be worked out.
* `Operation.idle_of_error`: **any other failure leaves the scheduler idle**.
* `failure_idle`: **so a failure leaves an animation running only there**, and for a value of finite
  size only where a tick cannot read its time.
* `tick_unreadable_goes_on`: a tick at a time beyond the doubles is such a failure.

Out of scope: its constructor, which may fail before there is a scheduler.
-/

namespace CanvasScript

namespace Scheduler

variable {α ε σ β γ : Type}

/-! ## Computations that end idle where they fail -/

/-- From an activity that `P` allows a computation succeeds with one that `Q` allows, or it fails
and leaves the scheduler idle. -/
def Ends (P Q : Activity α → Prop) (x : Playing ε σ α β) : Prop :=
  ∀ s notes, P s.activity →
    match x (s, notes) with
    | (.ok _, after) => Q after.1.activity
    | (.error _, after) => after.1.activity = .idle

/-- Every activity. -/
def Any : Activity α → Prop := fun _ => True

/-- The activity of a scheduler at rest. -/
def Idle : Activity α → Prop := fun activity => activity = .idle

section Rules

variable {P Q R : Activity α → Prop}

theorem Ends.idle_of_error {x : Playing ε σ α β} (h : Ends P Q x) {s : Scheduler α} {notes : σ}
    (hs : P s.activity) {error : PlaybackError ε} {after : Scheduler α × σ}
    (hx : x (s, notes) = (.error error, after)) : after.1.activity = .idle := by
  have hends := h s notes hs
  rw [hx] at hends
  exact hends

theorem Ends.pure (b : β) : Ends (ε := ε) (σ := σ) P P (pure b) := fun _ _ h => h

theorem Ends.ask (f : Scheduler α → β) : Ends (ε := ε) (σ := σ) P P (ask f) := fun _ _ h => h

theorem Ends.change (activity : Activity α) (h : Q activity) :
    Ends (ε := ε) (σ := σ) P Q (change (withActivity activity)) := fun _ _ _ => h

theorem Ends.cancel : Ends (ε := ε) (σ := σ) (α := α) P Idle cancel := Ends.change .idle rfl

/-- A fault leaves a scheduler at rest as it is. -/
theorem Ends.throw (e : PlaybackError ε) :
    Ends (σ := σ) Idle Q (throw e : Playing ε σ α β) := fun _ _ h => h

theorem Ends.read (reading : Except ReadFault β) :
    Ends (ε := ε) (σ := σ) (α := α) Idle Idle (read reading) := by
  intro s notes h
  cases reading with
  | ok b => exact h
  | error fault => exact h

theorem Ends.bind {x : Playing ε σ α β} {f : β → Playing ε σ α γ} (hx : Ends P Q x)
    (hf : ∀ b, Ends Q R (f b)) : Ends P R (x >>= f) := by
  intro s notes h
  have hends := hx s notes h
  rcases hrun : x (s, notes) with ⟨error | b, after⟩
  · rw [hrun] at hends
    rw [run_bind_error hrun]
    exact hends
  · rw [hrun] at hends
    rw [run_bind_ok hrun]
    exact hf b after.1 after.2 hends

/-- What ends well from any activity does so from those of `P`, and with any. -/
theorem Ends.weaken {x : Playing ε σ α β} (h : Ends Any Q x) : Ends P Any x := by
  intro s notes _
  have hends := h s notes trivial
  rcases hrun : x (s, notes) with ⟨error | b, after⟩
  · rw [hrun] at hends
    exact hends
  · exact trivial

theorem Ends.ite {p : Prop} [Decidable p] {x y : Playing ε σ α β} (hx : Ends P Q x)
    (hy : Ends P Q y) : Ends P Q (if p then x else y) := by
  split
  · exact hx
  · exact hy

theorem Ends.mapM_read (now : Option (Except ReadFault β)) :
    Ends (ε := ε) (σ := σ) (α := α) Idle Idle (now.mapM Scheduler.read) := by
  cases now with
  | none => exact Ends.pure none
  | some now => exact (Ends.read now).bind fun now => Ends.pure (some now)

end Rules

/-! ## Operations -/

section Operations

variable [Scalar α]

/-- A value is presented without a change of the activity. -/
theorem Ends.present (listener : Listener ε σ α) (v : α) : Ends Idle Idle (present listener v) := by
  intro s notes h
  cases hquantize : s.quantize v with
  | error fault =>
    rw [run_present_error hquantize]
    exact h
  | ok w =>
    rcases hlistener : (listener w) notes with ⟨error | _, notes'⟩
    · rw [run_present_refused hquantize hlistener]
      exact h
    · rw [run_present_accepted hquantize hlistener]
      exact h

/-- Moving at once ends the animation first. -/
theorem Ends.setValue (listener : Listener ε σ α) (v : Reading α) :
    Ends Any Idle (setValue listener v) :=
  Ends.cancel.bind fun _ => (Ends.read v).bind fun v => (Ends.ask (·.clamp v)).bind
    (Ends.present listener)

theorem Ends.first (listener : Listener ε σ α) : Ends Any Idle (first listener) :=
  (Ends.ask _).bind fun _ => Ends.setValue listener _

theorem Ends.last (listener : Listener ε σ α) : Ends Any Idle (last listener) :=
  (Ends.ask _).bind fun _ => Ends.setValue listener _

theorem Ends.animateWith (listener : Listener ε σ α) (target duration : Reading α)
    (easing : Easing) (now : Option (Reading α)) :
    Ends Idle Any (animateWith listener target duration easing now) := by
  refine (Ends.read target).bind fun t => (Ends.ask (·.clamp t)).bind fun target =>
    (Ends.read duration).bind fun duration => Ends.ite (Ends.setValue listener _).weaken ?_
  refine (Ends.ask (·.value)).bind fun origin => Ends.ite (Ends.setValue listener _).weaken ?_
  exact (Ends.mapM_read now).bind fun startTime => Ends.change _ trivial

/-- Starting an animation ends the one before first. -/
theorem Ends.animate (listener : Listener ε σ α) (target duration : Reading α) (easing : Easing)
    (now : Option (Reading α)) : Ends Any Any (animate listener target duration easing now) :=
  Ends.cancel.bind fun _ => Ends.animateWith listener target duration easing now

theorem Ends.play (listener : Listener ε σ α) (backward : Bool) (now : Option (Reading α)) :
    Ends Any Any (play listener backward now) := by
  refine (Ends.ask id).bind fun s => ?_
  have hplayed (start target : α) : Ends Any Any (do
      Scheduler.setValue listener (.ok start)
      Scheduler.animate listener (.ok target) (.ok s.animationDuration) .constantSpeed now) :=
    (Ends.setValue listener (.ok start)).weaken.bind fun _ => Ends.animate listener _ _ _ _
  exact Ends.ite (Ends.ite (hplayed _ _) (Ends.animate listener _ _ _ _))
    (Ends.ite (hplayed _ _) (Ends.animate listener _ _ _ _))

/-- What fails to be shown leaves the scheduler idle, whatever it was doing. -/
theorem Ends.presentOrRest (listener : Listener ε σ α) (v : α) :
    Ends Any Any (presentOrRest listener v) := by
  intro s notes _
  rcases hpresent : (Scheduler.present listener v) (s, notes) with ⟨error | _, after⟩
  · have hrest : (Scheduler.presentOrRest listener v) (s, notes) =
        (.error error, (withActivity .idle after.1, after.2)) := run_tryCatch_error hpresent
    rw [hrest]
    rfl
  · have hshown : (Scheduler.presentOrRest listener v) (s, notes) = (.ok (), after) :=
      run_tryCatch_ok hpresent
    rw [hshown]
    exact trivial

/-- A tick fails at rest once its time is read. -/
theorem Ends.tick (listener : Listener ε σ α) (now : α) :
    Ends Any Any (tick listener (.ok now)) := by
  refine (Ends.ask (·.activity)).bind fun activity => ?_
  cases activity with
  | idle => exact Ends.pure false
  | animating animation =>
    have hread : Ends (ε := ε) (σ := σ) (α := α) Any Any (Scheduler.read (.ok now)) :=
      fun _ _ h => h
    refine hread.bind fun now => ?_
    have hshown (v : α) := (Ends.presentOrRest listener v).bind fun _ =>
      Ends.ask (·.activity.isAnimating)
    exact Ends.ite ((Ends.change _ trivial).bind fun _ => hshown _)
      ((Ends.change _ trivial).bind fun _ => hshown _)

end Operations

/-! ## Failures -/

section Failures

variable [Written α]

/-- What an operation works out before it ends the animation cannot be worked out: the time of a
tick, or the integer to which a step goes. -/
def Operation.Unguarded (s : Scheduler α) : Operation α → Prop
  | .tick now => ∃ fault, now = .error fault
  | .stepForward _ => ∃ fault, nextInteger s.value = .error fault
  | .stepBackward _ => ∃ fault, previousInteger s.value = .error fault
  | _ => False

variable {listener : Listener ε σ α} {operation : Operation α} {s : Scheduler α} {notes : σ}
  {error : PlaybackError ε} {after : Scheduler α × σ}

omit [Written α] in
/-- A step that has found its integer fails at rest. -/
theorem idle_of_step_error {result : Except ArithmeticFault α} {animate : α → Playing ε σ α Unit}
    (hanimate : ∀ target, Ends Any Any (animate target)) (hfound : ¬ ∃ fault, result = .error fault)
    (h : (computed result >>= animate) (s, notes) = (.error error, after)) :
    after.1.activity = .idle := by
  cases result with
  | error fault => exact absurd ⟨fault, rfl⟩ hfound
  | ok target =>
    rw [run_bind_ok (run_computed rfl s notes)] at h
    exact (hanimate target).idle_of_error trivial h

omit [Written α] in
/-- A step that does not find its integer does nothing. -/
theorem unchanged_of_step_error {result : Except ArithmeticFault α}
    {animate : α → Playing ε σ α Unit} (hnot : ∃ fault, result = .error fault)
    (h : (computed result >>= animate) (s, notes) = (.error error, after)) :
    after = (s, notes) := by
  obtain ⟨fault, hfault⟩ := hnot
  rw [run_bind_error (run_computed_error hfault s notes)] at h
  exact (congrArg Prod.snd h).symm

/-- The name of an easing is looked up at rest. -/
theorem Ends.animateTo (listener : Listener ε σ α) (target duration : Reading α) (easing : Value α)
    (now : Option (Reading α)) : Ends Any Any (animateTo listener target duration easing now) := by
  refine Ends.cancel.bind fun _ => Ends.bind ?_ fun easing =>
    Ends.animateWith listener target duration easing now
  unfold easingOf
  split
  · exact Ends.pure _
  · exact Ends.throw _

/-- **A failure leaves the scheduler idle**, unless it comes first. -/
theorem Operation.idle_of_error (hguarded : ¬ operation.Unguarded s)
    (h : operation.run listener (s, notes) = (.error error, after)) :
    after.1.activity = .idle := by
  cases operation with
  | setValue v => exact (Ends.setValue listener v).idle_of_error trivial h
  | animateTo target duration easing now =>
    exact (Ends.animateTo listener target duration easing now).idle_of_error trivial h
  | tick now =>
    cases now with
    | error fault => exact absurd ⟨fault, rfl⟩ hguarded
    | ok now =>
      have hends : Ends (ε := ε) (σ := σ) Any Any ((Operation.tick (.ok now)).run listener) :=
        (Ends.tick listener now).bind fun _ => Ends.pure ()
      exact hends.idle_of_error trivial h
  | cancel => exact Ends.cancel.idle_of_error (P := Any) trivial h
  | pause => exact Ends.cancel.idle_of_error (P := Any) trivial h
  | play backward now => exact (Ends.play listener backward now).idle_of_error trivial h
  | stepForward now =>
    exact idle_of_step_error (fun _ => Ends.animate listener _ _ _ _) hguarded
      ((run_bind_ok (run_ask id s notes)).symm.trans h)
  | stepBackward now =>
    exact idle_of_step_error (fun _ => Ends.animate listener _ _ _ _) hguarded
      ((run_bind_ok (run_ask id s notes)).symm.trans h)
  | first => exact (Ends.first listener).idle_of_error trivial h
  | last => exact (Ends.last listener).idle_of_error trivial h

/-- A failure that comes first leaves everything as it was. -/
theorem Operation.unchanged_of_error (hunguarded : operation.Unguarded s)
    (h : operation.run listener (s, notes) = (.error error, after)) : after = (s, notes) := by
  cases operation with
  | tick now =>
    obtain ⟨fault, rfl⟩ := hunguarded
    cases hactivity : s.activity with
    | idle =>
      have hrun : (Operation.tick (.error fault)).run listener (s, notes) =
          (.ok (), (s, notes)) := by
        refine run_bind_ok (b := false) ((run_bind_ok (b := s.activity) rfl).trans ?_)
        rw [hactivity]
        rfl
      rw [hrun] at h
      cases h
    | animating animation =>
      have hrun : (Operation.tick (.error fault)).run listener (s, notes) =
          (.error (.reading fault), (s, notes)) := by
        refine run_bind_error ((run_bind_ok (b := s.activity) rfl).trans ?_)
        rw [hactivity]
        rfl
      rw [hrun] at h
      exact (congrArg Prod.snd h).symm
  | stepForward now =>
    exact unchanged_of_step_error hunguarded ((run_bind_ok (run_ask id s notes)).symm.trans h)
  | stepBackward now =>
    exact unchanged_of_step_error hunguarded ((run_bind_ok (run_ask id s notes)).symm.trans h)
  | setValue | animateTo | cancel | pause | play | first | last => exact hunguarded.elim

end Failures

/-! ## Doubles -/

/-- A double of finite size has integers next to it. -/
theorem exists_integers {v : Float} (h : v.isFinite = true) :
    (∃ n, nextInteger v = .ok n) ∧ ∃ n, previousInteger v = .ok n := by
  obtain ⟨r, hr⟩ := Binary64.isFinite_iff.mp h
  have hround : Scalar.round v = .ok (Rounding.halfEven r) :=
    congrArg (Except.map Rounding.halfEven) hr
  have hceil : Scalar.ceil v = .ok r.ceil := congrArg (Except.map Rat.ceil) hr
  have hfloor : Scalar.floor v = .ok r.floor := congrArg (Except.map Rat.floor) hr
  unfold nextInteger previousInteger
  rw [hround, hceil, hfloor]
  exact ⟨⟨_, (apply_ite Except.ok _ _ _).symm⟩, ⟨_, (apply_ite Except.ok _ _ _).symm⟩⟩

/-- Of a value of finite size only the time of a tick can fail to be worked out. -/
theorem Operation.unguarded_iff {operation : Operation Float} {s : Scheduler Float}
    (h : s.value.isFinite = true) :
    operation.Unguarded s ↔ ∃ fault, operation = .tick (.error fault) := by
  obtain ⟨⟨next, hnext⟩, ⟨previous, hprevious⟩⟩ := exists_integers h
  cases operation with
  | tick now =>
    constructor
    · rintro ⟨fault, rfl⟩
      exact ⟨fault, rfl⟩
    · rintro ⟨fault, htick⟩
      cases htick
      exact ⟨fault, rfl⟩
  | stepForward now =>
    constructor
    · rintro ⟨fault, hfault⟩
      rw [hnext] at hfault
      cases hfault
    · rintro ⟨fault, hstep⟩
      cases hstep
  | stepBackward now =>
    constructor
    · rintro ⟨fault, hfault⟩
      rw [hprevious] at hfault
      cases hfault
    · rintro ⟨fault, hstep⟩
      cases hstep
  | setValue | animateTo | cancel | pause | play | first | last =>
    exact ⟨False.elim, fun ⟨_, hother⟩ => nomatch hother⟩

/-- **A failure leaves the scheduler idle**, from every state that it gets into and whatever is
asked of it, unless an animation is running and the failure comes first; then nothing has changed.
On a range of finite size that happens to ticks alone, where they cannot read their time. -/
theorem failure_idle {setup : Setup Float} {s₀ s : Scheduler Float}
    (hsetup : ofSetup setup = .ok s₀) {listener : Listener ε σ Float} {notes₀ notes : σ}
    {operations : List (Operation Float)}
    (hreached : runAll listener operations (s₀, notes₀) = (s, notes))
    {operation : Operation Float} {error : PlaybackError ε} {after : Scheduler Float × σ}
    (hfails : operation.run listener (s, notes) = (.error error, after)) :
    (after.1.activity = .idle ↔ ¬ (s.activity.isAnimating = true ∧ operation.Unguarded s)) ∧
      (operation.Unguarded s → after = (s, notes)) ∧
      (s₀.minimum ≤ s₀.maximum → s₀.minimum.isFinite = true → s₀.maximum.isFinite = true →
        (operation.Unguarded s ↔ ∃ fault, operation = .tick (.error fault))) := by
  refine ⟨?_, fun hunguarded => operation.unchanged_of_error hunguarded hfails, ?_⟩
  · by_cases hunguarded : operation.Unguarded s
    · rw [operation.unchanged_of_error hunguarded hfails]
      cases hactivity : s.activity with
      | idle => simp [Activity.isAnimating]
      | animating animation => simp [Activity.isAnimating, hunguarded]
    · exact ⟨fun _ h => hunguarded h.2, fun _ => operation.idle_of_error hunguarded hfails⟩
  · intro hrange hminimum hmaximum
    obtain ⟨lo, hlo⟩ := Binary64.isFinite_iff.mp hminimum
    obtain ⟨hi, hhi⟩ := Binary64.isFinite_iff.mp hmaximum
    have hstart : SettingsOf s₀ s₀ := by
      refine ⟨rfl, ?_⟩
      rw [value_ofSetup hsetup]
      exact ⟨OrderedScalar.le_self_left hrange, hrange⟩
    obtain ⟨_, _, _, hrun, -, -, hset⟩ :=
      runAll_alike (follows_settings hrange listener) operations (n := notes₀) ⟨rfl, hstart⟩
    rw [hreached] at hrun
    cases hrun
    obtain ⟨r, hr, -⟩ := Binary64.exists_toRat? hlo hhi hset.mem.1 hset.mem.2
    exact Operation.unguarded_iff (Binary64.isFinite_iff.mpr ⟨r, hr⟩)

/-- A run that ends in the middle of an animation, with two values accepted. -/
def halfway : List (Operation Float) :=
  [.setValue (.ok 1), .play false (some (.ok 0)), .tick (.ok 600)]

/-- A listener that refuses a value ends the animation that was running. -/
theorem failure_idle_refused :
    ∃ s₀ s after, ofSetup gridSetup = .ok s₀ ∧
      runAll refuseThird halfway (s₀, 0) = (s, 2) ∧
      s.activity.isAnimating = true ∧
      (Operation.tick (.ok 1200)).run refuseThird (s, 2) = (.error (.listener 2), after) ∧
      after.1.activity = .idle := by
  have hcheck : ((ofSetup gridSetup).map fun s₀ =>
      let reached := runAll refuseThird halfway (s₀, 0)
      let tried := (Operation.tick (.ok 1200)).run refuseThird (reached.1, 2)
      decide (reached.2 = 2 ∧ reached.1.activity.isAnimating = true ∧
        tried.1 = .error (.listener 2))).toOption = some true := by decide +kernel
  cases hsetup : ofSetup gridSetup with
  | error error =>
    rw [hsetup] at hcheck
    cases hcheck
  | ok s₀ =>
    rw [hsetup] at hcheck
    obtain ⟨hnotes, hanimating, hfails⟩ := of_decide_eq_true (Option.some.inj hcheck)
    rcases hreached : runAll refuseThird halfway (s₀, 0) with ⟨s, notes⟩
    rw [hreached] at hnotes hanimating hfails
    obtain rfl : notes = 2 := hnotes
    rcases htried : (Operation.tick (.ok 1200)).run refuseThird (s, 2) with ⟨result, after⟩
    rw [htried] at hfails
    obtain rfl : result = .error (.listener 2) := hfails
    refine ⟨s₀, s, after, rfl, hreached, hanimating, htried, ?_⟩
    refine (failure_idle hsetup hreached htried).1.mpr ?_
    rintro ⟨-, fault, hunreadable⟩
    cases hunreadable

/-- A tick at a time beyond the doubles fails, and the animation goes on. -/
theorem tick_unreadable_goes_on :
    ∃ s₀ s, ofSetup (α := Float) Setup.default = .ok s₀ ∧
      runAll refuseThird [.animateTo (.ok 1) (.ok 1000) (.text "linear") (some (.ok 0))] (s₀, 0) =
        (s, 0) ∧
      (Operation.tick (Value.toScalar? (.number (.int (10 ^ 400))))).run refuseThird (s, 0) =
        (.error (.reading .tooLarge), (s, 0)) ∧
      s.activity.isAnimating = true := by
  have hcheck : ((ofSetup (α := Float) Setup.default).map fun s₀ =>
      let reached := runAll refuseThird
        [.animateTo (.ok 1) (.ok 1000) (.text "linear") (some (.ok 0))] (s₀, 0)
      let tried := (Operation.tick (Value.toScalar? (.number (.int (10 ^ 400))))).run refuseThird
        (reached.1, 0)
      decide (reached.2 = 0 ∧ reached.1.activity.isAnimating = true ∧
        tried.1 = .error (.reading .tooLarge) ∧ tried.2 = (reached.1, 0))).toOption =
      some true := by decide +kernel
  cases hsetup : ofSetup (α := Float) Setup.default with
  | error error =>
    rw [hsetup] at hcheck
    cases hcheck
  | ok s₀ =>
    rw [hsetup] at hcheck
    obtain ⟨hnotes, hanimating, hfails, hafter⟩ := of_decide_eq_true (Option.some.inj hcheck)
    rcases hreached : runAll refuseThird [.animateTo (.ok 1) (.ok 1000) (.text "linear")
      (some (.ok 0))] (s₀, 0) with ⟨s, notes⟩
    rw [hreached] at hnotes hanimating hfails hafter
    obtain rfl : notes = 0 := hnotes
    exact ⟨s₀, s, rfl, hreached, Prod.ext hfails hafter, hanimating⟩

end Scheduler

end CanvasScript
