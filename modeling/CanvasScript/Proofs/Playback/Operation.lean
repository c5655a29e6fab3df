import CanvasScript.Playback.Scheduler
import CanvasScript.Proofs.Except

/-!
# Runs of a scheduler

What can be done with a `PlaybackScheduler`, and what holds after any order of it.

* `Operation` is one of the things that can be asked of a scheduler, with whatever it is given.
* `runAll` does one after another. An operation that fails leaves the scheduler and the notes as it
  left them, and the next one goes on from there.
* `Alike R x y`: two operations beside different notes have the same result and do the same to the
  scheduler, and they keep the relation `R` of the scheduler and both notes.

An operation touches the scheduler in two ways only: it changes the activity, and presents a value
(`Follows`). So what these two keep, every operation keeps.

Results:
* `Operation.alike`: **every operation keeps what the two ways keep**.
* `runAll_alike`: and so does every run.

Out of scope: a listener that acts on the scheduler by which it is told.
-/

namespace CanvasScript

namespace Scheduler

variable {α ε σ τ β γ : Type}

/-! ## Alike operations -/

section Alike

/-- Two operations have the same result and the same effect on the scheduler, and keep a relation of
the scheduler and the notes beside it. -/
def Alike (R : Scheduler α → σ → τ → Prop) (x : Playing ε σ α β) (y : Playing ε τ α β) : Prop :=
  ∀ s m n, R s m n → ∃ result s' m' n',
    x (s, m) = (result, (s', m')) ∧ y (s, n) = (result, (s', n')) ∧ R s' m' n'

variable {R : Scheduler α → σ → τ → Prop}

theorem Alike.pure (b : β) : Alike (ε := ε) R (pure b) (pure b) := by
  intro s m n h
  exact ⟨.ok b, s, m, n, rfl, rfl, h⟩

theorem Alike.throw (e : PlaybackError ε) :
    Alike R (throw e : Playing ε σ α β) (throw e : Playing ε τ α β) := by
  intro s m n h
  exact ⟨.error e, s, m, n, rfl, rfl, h⟩

theorem Alike.ask (f : Scheduler α → β) : Alike (ε := ε) R (ask f) (ask f) := by
  intro s m n h
  exact ⟨.ok (f s), s, m, n, rfl, rfl, h⟩

theorem Alike.read (reading : Except ReadFault β) :
    Alike (ε := ε) R (read reading) (read reading) := by
  intro s m n h
  exact ⟨_, s, m, n, rfl, rfl, h⟩

theorem Alike.computed (result : Except ArithmeticFault β) :
    Alike (ε := ε) R (computed result) (computed result) := by
  intro s m n h
  exact ⟨_, s, m, n, rfl, rfl, h⟩

theorem Alike.bind {x : Playing ε σ α β} {y : Playing ε τ α β} {f : β → Playing ε σ α γ}
    {g : β → Playing ε τ α γ} (hx : Alike R x y) (hf : ∀ b, Alike R (f b) (g b)) :
    Alike R (x >>= f) (y >>= g) := by
  intro s m n h
  obtain ⟨result, s', m', n', hxs, hys, h'⟩ := hx s m n h
  cases result with
  | ok b =>
    rw [run_bind_ok hxs, run_bind_ok hys]
    exact hf b s' m' n' h'
  | error e =>
    rw [run_bind_error hxs, run_bind_error hys]
    exact ⟨.error e, s', m', n', rfl, rfl, h'⟩

theorem Alike.tryCatch {x : Playing ε σ α β} {y : Playing ε τ α β}
    {f : PlaybackError ε → Playing ε σ α β} {g : PlaybackError ε → Playing ε τ α β}
    (hx : Alike R x y) (hf : ∀ e, Alike R (f e) (g e)) :
    Alike R (tryCatchThe (PlaybackError ε) x f) (tryCatchThe (PlaybackError ε) y g) := by
  intro s m n h
  obtain ⟨result, s', m', n', hxs, hys, h'⟩ := hx s m n h
  cases result with
  | ok b =>
    rw [run_tryCatch_ok hxs, run_tryCatch_ok hys]
    exact ⟨.ok b, s', m', n', rfl, rfl, h'⟩
  | error e =>
    rw [run_tryCatch_error hxs, run_tryCatch_error hys]
    exact hf e s' m' n' h'

theorem Alike.ite {p : Prop} [Decidable p] {x x' : Playing ε σ α β} {y y' : Playing ε τ α β}
    (h : Alike R x y) (h' : Alike R x' y') :
    Alike R (if p then x else x') (if p then y else y') := by
  split
  · exact h
  · exact h'

theorem Alike.mapM_read (now : Option (Except ReadFault β)) :
    Alike (ε := ε) R (now.mapM Scheduler.read) (now.mapM Scheduler.read) := by
  cases now with
  | none => exact Alike.pure none
  | some now => exact (Alike.read now).bind fun now => Alike.pure (some now)

end Alike

/-! ## Asking and presenting a value -/

theorem run_ask (f : Scheduler α → γ) (s : Scheduler α) (notes : σ) :
    (ask f : Playing ε σ α γ) (s, notes) = (.ok (f s), (s, notes)) := rfl

theorem run_computed {result : Except ArithmeticFault γ} {c : γ} (h : result = .ok c)
    (s : Scheduler α) (notes : σ) :
    (computed result : Playing ε σ α γ) (s, notes) = (.ok c, (s, notes)) := by
  rw [h]
  rfl

theorem run_computed_error {result : Except ArithmeticFault γ} {fault : ArithmeticFault}
    (h : result = .error fault) (s : Scheduler α) (notes : σ) :
    (computed result : Playing ε σ α γ) (s, notes) = (.error (.arithmetic fault), (s, notes)) := by
  rw [h]
  rfl

section Present

variable [Scalar α] {listener : Listener ε σ α} {s : Scheduler α} {notes notes' : σ} {v w : α}

/-- Without a point of the grid nothing is presented. -/
theorem run_present_error {fault : ArithmeticFault} (h : s.quantize v = .error fault) :
    (present listener v) (s, notes) = (.error (.arithmetic fault), (s, notes)) := by
  unfold present
  simp only [h]

/-- An accepted value is the new one. -/
theorem run_present_accepted (h : s.quantize v = .ok w)
    (hlistener : (listener w) notes = (.ok (), notes')) :
    (present listener v) (s, notes) = (.ok (), ({ s with value := w }, notes')) := by
  have hrun : (listener w).run notes = (.ok (), notes') := hlistener
  unfold present
  simp only [h, hrun]

/-- A refused value leaves the one before. -/
theorem run_present_refused {error : ε} (h : s.quantize v = .ok w)
    (hlistener : (listener w) notes = (.error error, notes')) :
    (present listener v) (s, notes) = (.error (.listener error), (s, notes')) := by
  have hrun : (listener w).run notes = (.error error, notes') := hlistener
  unfold present
  simp only [h, hrun]

end Present

/-! ## What every operation keeps -/

section Follows

variable [Scalar α]

/-- A relation is kept by the two ways in which an operation touches a scheduler. -/
structure Follows (R : Scheduler α → σ → τ → Prop) (listener : Listener ε σ α)
    (listener' : Listener ε τ α) : Prop where
  activity : ∀ {s m n} activity, R s m n → R (withActivity activity s) m n
  present : ∀ v, Alike R (present listener v) (present listener' v)

variable {R : Scheduler α → σ → τ → Prop} {listener : Listener ε σ α} {listener' : Listener ε τ α}

namespace Follows

theorem change (h : Follows R listener listener') (activity : Activity α) :
    Alike (ε := ε) R (Scheduler.change (withActivity activity))
      (Scheduler.change (withActivity activity)) := by
  intro s m n hR
  exact ⟨.ok (), withActivity activity s, m, n, rfl, rfl, h.activity activity hR⟩

theorem cancel (h : Follows R listener listener') : Alike (ε := ε) R cancel cancel :=
  h.change .idle

theorem setValue (h : Follows R listener listener') (v : Reading α) :
    Alike R (setValue listener v) (setValue listener' v) :=
  h.cancel.bind fun _ => (Alike.read v).bind fun v => (Alike.ask (·.clamp v)).bind h.present

theorem animateWith (h : Follows R listener listener') (target duration : Reading α)
    (easing : Easing) (now : Option (Reading α)) :
    Alike R (animateWith listener target duration easing now)
      (animateWith listener' target duration easing now) := by
  refine (Alike.read target).bind fun t => (Alike.ask (·.clamp t)).bind fun target =>
    (Alike.read duration).bind fun duration => Alike.ite (h.setValue _) ?_
  refine (Alike.ask (·.value)).bind fun origin => Alike.ite (h.setValue _) ?_
  exact (Alike.mapM_read now).bind fun startTime => h.change _

theorem animate (h : Follows R listener listener') (target duration : Reading α) (easing : Easing)
    (now : Option (Reading α)) :
    Alike R (animate listener target duration easing now)
      (animate listener' target duration easing now) :=
  h.cancel.bind fun _ => h.animateWith target duration easing now

theorem presentOrRest (h : Follows R listener listener') (v : α) :
    Alike R (presentOrRest listener v) (presentOrRest listener' v) :=
  (h.present v).tryCatch fun e => h.cancel.bind fun _ => Alike.throw e

theorem tick (h : Follows R listener listener') (now : Reading α) :
    Alike R (tick listener now) (tick listener' now) := by
  refine (Alike.ask (·.activity)).bind fun activity => ?_
  cases activity with
  | idle => exact Alike.pure false
  | animating animation =>
    refine (Alike.read now).bind fun now => ?_
    have hshown (v : α) := (h.presentOrRest v).bind fun _ => Alike.ask (·.activity.isAnimating)
    exact Alike.ite ((h.change _).bind fun _ => hshown _) ((h.change _).bind fun _ => hshown _)

theorem play (h : Follows R listener listener') (backward : Bool) (now : Option (Reading α)) :
    Alike R (play listener backward now) (play listener' backward now) := by
  refine (Alike.ask id).bind fun s => ?_
  have hplayed (start target : α) := (h.setValue (.ok start)).bind fun _ =>
    h.animate (.ok target) (.ok s.animationDuration) .constantSpeed now
  exact Alike.ite (Alike.ite (hplayed _ _) (h.animate _ _ _ _))
    (Alike.ite (hplayed _ _) (h.animate _ _ _ _))

theorem stepForward (h : Follows R listener listener') (now : Option (Reading α)) :
    Alike R (stepForward listener now) (stepForward listener' now) :=
  (Alike.ask id).bind fun _ => (Alike.computed _).bind fun _ => h.animate _ _ _ _

theorem stepBackward (h : Follows R listener listener') (now : Option (Reading α)) :
    Alike R (stepBackward listener now) (stepBackward listener' now) :=
  (Alike.ask id).bind fun _ => (Alike.computed _).bind fun _ => h.animate _ _ _ _

theorem first (h : Follows R listener listener') : Alike R (first listener) (first listener') :=
  (Alike.ask (·.minimum)).bind fun minimum => h.setValue (.ok minimum)

theorem last (h : Follows R listener listener') : Alike R (last listener) (last listener') :=
  (Alike.ask (·.maximum)).bind fun maximum => h.setValue (.ok maximum)

end Follows

end Follows

/-! ## Runs -/

section Runs

variable [Written α]

/-- What can be asked of a scheduler. -/
inductive Operation (α : Type) where
  | setValue (v : Reading α)
  /-- The easing is a value that may name one. -/
  | animateTo (target duration : Reading α) (easing : Value α) (now : Option (Reading α))
  | tick (now : Reading α)
  | cancel
  | pause
  | play (backward : Bool) (now : Option (Reading α))
  | stepForward (now : Option (Reading α))
  | stepBackward (now : Option (Reading α))
  | first
  | last

/-- Does what is asked. -/
def Operation.run (listener : Listener ε σ α) : Operation α → Playing ε σ α Unit
  | .setValue v => Scheduler.setValue listener v
  | .animateTo target duration easing now => Scheduler.animateTo listener target duration easing now
  | .tick now => do
    let _ ← Scheduler.tick listener now
  | .cancel | .pause => Scheduler.cancel
  | .play backward now => Scheduler.play listener backward now
  | .stepForward now => Scheduler.stepForward listener now
  | .stepBackward now => Scheduler.stepBackward listener now
  | .first => Scheduler.first listener
  | .last => Scheduler.last listener

/-- Does one operation after another, also after one that fails. -/
def runAll (listener : Listener ε σ α) :
    List (Operation α) → Scheduler α × σ → Scheduler α × σ
  | [], state => state
  | operation :: rest, state => runAll listener rest (operation.run listener state).2

variable {R : Scheduler α → σ → τ → Prop} {listener : Listener ε σ α} {listener' : Listener ε τ α}

theorem Follows.animateTo (h : Follows R listener listener') (target duration : Reading α)
    (easing : Value α) (now : Option (Reading α)) :
    Alike R (animateTo listener target duration easing now)
      (animateTo listener' target duration easing now) := by
  refine h.cancel.bind fun _ => Alike.bind ?_ fun easing => h.animateWith target duration easing now
  unfold easingOf
  split
  · exact Alike.pure _
  · exact Alike.throw _

/-- **Every operation keeps what a change of the activity and a presented value keep.** -/
theorem Operation.alike (h : Follows R listener listener') (operation : Operation α) :
    Alike R (operation.run listener) (operation.run listener') := by
  cases operation with
  | setValue v => exact h.setValue v
  | animateTo target duration easing now => exact h.animateTo target duration easing now
  | tick now => exact (h.tick now).bind fun _ => Alike.pure ()
  | cancel => exact h.cancel
  | pause => exact h.cancel
  | play backward now => exact h.play backward now
  | stepForward now => exact h.stepForward now
  | stepBackward now => exact h.stepBackward now
  | first => exact h.first
  | last => exact h.last

/-- **A run keeps what every operation keeps**, and the schedulers go the same way. -/
theorem runAll_alike (h : Follows R listener listener') :
    ∀ (operations : List (Operation α)) {s m n}, R s m n → ∃ s' m' n',
      runAll listener operations (s, m) = (s', m') ∧
      runAll listener' operations (s, n) = (s', n') ∧ R s' m' n'
  | [], s, m, n, hR => ⟨s, m, n, rfl, rfl, hR⟩
  | operation :: rest, s, m, n, hR => by
    obtain ⟨result, s', m', n', hrun, hrun', hR'⟩ := operation.alike h s m n hR
    unfold runAll
    rw [hrun, hrun']
    exact runAll_alike h rest hR'

end Runs

end Scheduler

end CanvasScript
