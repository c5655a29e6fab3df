import CanvasScript.Playback.Run
import CanvasScript.Proofs.Except

/-!
# Runs of a playback

A playback (`run_playback`) couples a scheduler, which may come to rest by itself, with a clock,
which selects the frames that are shown, and a count of frames that may end it earlier. What it does
beyond the scheduler are its calls: it tells the listener values and shows frames to the presenter.

* `Call` is one of these calls, and `Call.make` what it does to the notes.
* `ComesToRest`: ticks at the times of a clock bring a scheduler to rest.
* `Goes` says how a playback goes from one of these ticks on.
* `exists_playFrom`: **a playback makes these ticks**, one after another, until the scheduler is at
  rest or the frames are used up. The frames it shows have consecutive numbers.
-/

namespace CanvasScript

namespace Playback

variable {α ε σ : Type}

/-! ## Calls -/

/-- What a playback calls. -/
inductive Call (α : Type) where
  /-- The listener is told a value. -/
  | told (v : α)
  /-- The presenter is shown a frame. -/
  | shown (number : Nat) (now v : α)

namespace Call

/-- The value that a listener is told. -/
def value? : Call α → Option α
  | .told v => some v
  | .shown _ _ _ => none

/-- The number of a frame that is shown, and its time and value. -/
def frame? : Call α → Option (Nat × α × α)
  | .told _ => none
  | .shown number now v => some (number, now, v)

/-- What a call does to the notes. -/
def make (listener : Listener ε σ α) (presenter : Option (Presenter σ α)) (notes : σ) :
    Call α → σ
  | .told v => ((listener v).run notes).2
  | .shown number now v => presenter.elim notes fun shown => shown number now v notes

end Call

/-- What the calls do one after another. -/
def makeAll (listener : Listener ε σ α) (presenter : Option (Presenter σ α))
    (calls : List (Call α)) (notes : σ) : σ :=
  calls.foldl (Call.make listener presenter) notes

theorem makeAll_append (listener : Listener ε σ α) (presenter : Option (Presenter σ α))
    (calls others : List (Call α)) (notes : σ) :
    makeAll listener presenter (calls ++ others) notes =
      makeAll listener presenter others (makeAll listener presenter calls notes) :=
  List.foldl_append

/-- The values that calls tell the listener. -/
def valuesOf (calls : List (Call α)) : List α := calls.filterMap Call.value?

/-- The frames that calls show. -/
def framesOf (calls : List (Call α)) : List (Nat × α × α) := calls.filterMap Call.frame?

/-- The call that shows a frame, if it is shown. -/
def frameCalls (isShown : Bool) (number : Nat) (now v : α) : List (Call α) :=
  if isShown then [.shown number now v] else []

/-- The calls of a tick: what the listener is told, and then the frame. -/
def tickCalls (told : List α) (isShown : Bool) (number : Nat) (now v : α) : List (Call α) :=
  told.map Call.told ++ frameCalls isShown number now v

theorem valuesOf_append (calls others : List (Call α)) :
    valuesOf (calls ++ others) = valuesOf calls ++ valuesOf others := List.filterMap_append

theorem framesOf_append (calls others : List (Call α)) :
    framesOf (calls ++ others) = framesOf calls ++ framesOf others := List.filterMap_append

theorem valuesOf_tickCalls (told : List α) (isShown : Bool) (number : Nat) (now v : α) :
    valuesOf (tickCalls told isShown number now v) = told := by
  have hframe : valuesOf (frameCalls isShown number now v) = [] := by cases isShown <;> rfl
  rw [tickCalls, valuesOf_append, hframe, List.append_nil]
  exact (List.filterMap_map ..).trans List.filterMap_some

theorem framesOf_tickCalls (told : List α) (isShown : Bool) (number : Nat) (now v : α) :
    framesOf (tickCalls told isShown number now v) =
      if isShown then [(number, now, v)] else [] := by
  have htold : framesOf (told.map Call.told) = [] := by
    simp [framesOf, Call.frame?]
  rw [tickCalls, framesOf_append, htold, List.nil_append]
  cases isShown <;> rfl

/-! ## Steps of a playback -/

section

variable [Scalar α] {listener : Listener ε σ α} {clock : FrameClock α} {start : α}
  {s t : Scheduler α} {first : Nat} {notes notes' : σ}

/-- Whether a frame is presented does not change the times of the frames. -/
theorem timeOf_present (clock : FrameClock α) (now start : α) :
    (clock.present now).2.timeOf start = clock.timeOf start := by
  unfold FrameClock.present
  dsimp only
  split <;> rfl

/-- A playback goes on behind a tick that does, with the next number if the frame was shown. -/
theorem playFrom_goesOn (presenter : Option (Presenter σ α))
    (h : (Scheduler.tick listener (.ok (clock.timeOf start first))) (s, notes) =
      (.ok true, (t, notes'))) (left number : Nat) :
    ∃ isShown clock', clock'.timeOf start = clock.timeOf start ∧
      (presenter = none → isShown = false) ∧
      (playFrom listener presenter start (left + 1) first number clock) (s, notes) =
        (playFrom listener presenter start left (first + 1)
          (if isShown then number + 1 else number) clock') (t, makeAll listener presenter
            (frameCalls isShown number (clock.timeOf start first) t.value) notes') := by
  cases presenter with
  | none => exact ⟨false, clock, rfl, fun _ => rfl, run_bind_ok h⟩
  | some shown =>
    refine ⟨(clock.present (clock.timeOf start first)).1,
      (clock.present (clock.timeOf start first)).2, timeOf_present _ _ _, nofun, ?_⟩
    refine (run_bind_ok h).trans ?_
    rcases clock.present (clock.timeOf start first) with ⟨isDue, clock'⟩
    cases isDue <;> rfl

/-- A playback ends behind a tick that does not go on, and that frame is shown. -/
theorem playFrom_rests (presenter : Option (Presenter σ α))
    (h : (Scheduler.tick listener (.ok (clock.timeOf start first))) (s, notes) =
      (.ok false, (t, notes'))) (left number : Nat) :
    (playFrom listener presenter start (left + 1) first number clock) (s, notes) =
      (.ok (first + 1), (t, makeAll listener presenter
        (frameCalls presenter.isSome number (clock.timeOf start first) t.value) notes')) := by
  refine (run_bind_ok h).trans ?_
  cases presenter with
  | none => rfl
  | some shown =>
    rcases clock.present (clock.timeOf start first) with ⟨isDue, clock'⟩
    cases isDue <;> rfl

end

/-! ## Whole playbacks -/

/-- Ticks bring a scheduler to rest with tick number `last`. The states are those before each of
them. -/
structure ComesToRest [Scalar α] (listener : Listener ε σ α) (time : Nat → α)
    (state : Nat → Scheduler α) (told : Nat → List α) (last : Nat) : Prop where
  /-- A tick tells the listener some values, and goes on before the last one. -/
  tick : ∀ {i}, i ≤ last → ∀ presenter notes,
    (Scheduler.tick listener (.ok (time i))) (state i, notes) =
      (.ok (decide (i < last)),
        (state (i + 1), makeAll listener presenter ((told i).map Call.told) notes))
  idle : (state (last + 1)).activity = .idle

section

variable {presenter : Option (Presenter σ α)} {time : Nat → α} {state : Nat → Scheduler α}
  {told : Nat → List α} {last : Nat}

/-- How a playback goes from tick number `first` on with at most `left` ticks: the count of all
ticks, the scheduler behind them, and the calls. -/
structure Goes (presenter : Option (Presenter σ α)) (time : Nat → α) (state : Nat → Scheduler α)
    (told : Nat → List α) (last first left number ticks : Nat) (t : Scheduler α)
    (calls : List (Call α)) : Prop where
  ticks_eq : ticks = min (first + left) (last + 1)
  /-- The listener is told what each tick tells it, and nothing more. -/
  values : valuesOf calls = (List.range' first (ticks - first)).flatMap told
  /-- The frames have consecutive numbers. -/
  numbers : (framesOf calls).map Prod.fst = List.range' number (framesOf calls).length
  /-- They are frames of ticks, with the value behind that tick. -/
  frames : ((framesOf calls).map Prod.snd).Sublist
    ((List.range' first (ticks - first)).map fun i => (time i, (state (i + 1)).value))
  hidden : presenter = none → framesOf calls = []
  /-- The scheduler is put to rest behind the last tick where it has not come to rest. -/
  state_eq : t = Scheduler.withActivity .idle (state ticks)
  /-- Where the scheduler comes to rest, that frame is shown. -/
  shown : last < first + left → presenter.isSome → ((framesOf calls).map Prod.snd).getLast? =
    some (time last, (state (last + 1)).value)

namespace Goes

variable {first left number ticks : Nat} {t : Scheduler α} {calls : List (Call α)}

theorem nil (h : first ≤ last) :
    Goes presenter time state told last first 0 number first
      (Scheduler.withActivity .idle (state first)) [] where
  ticks_eq := by omega
  values := by simp [valuesOf]
  numbers := rfl
  frames := List.nil_sublist _
  hidden _ := rfl
  state_eq := rfl
  shown := by omega

theorem rests (hidle : (state (last + 1)).activity = .idle) :
    Goes presenter time state told last last (left + 1) number (last + 1) (state (last + 1))
      (tickCalls (told last) presenter.isSome number (time last) (state (last + 1)).value) where
  ticks_eq := by omega
  values := by simp [valuesOf_tickCalls]
  numbers := by
    rw [framesOf_tickCalls]
    cases presenter <;> rfl
  frames := by
    rw [framesOf_tickCalls]
    cases presenter <;> simp
  hidden hnone := by rw [framesOf_tickCalls, hnone, Option.isSome_none, if_neg Bool.false_ne_true]
  state_eq := by
    rw [Scheduler.withActivity, ← hidle]
  shown _ hsome := by
    rw [framesOf_tickCalls, if_pos hsome]
    rfl

theorem cons (hlt : first < last) {isShown : Bool} (hshown : presenter = none → isShown = false)
    (h : Goes presenter time state told last (first + 1) left
      (if isShown then number + 1 else number) ticks t calls) :
    Goes presenter time state told last first (left + 1) number ticks t
      (tickCalls (told first) isShown number (time first) (state (first + 1)).value ++ calls) := by
  have hleft : first + 1 + left = first + (left + 1) := by omega
  have hticks : ticks - first = ticks - (first + 1) + 1 := by
    have := h.ticks_eq
    omega
  obtain ⟨ticks_eq, values, numbers, frames, hidden, state_eq, shown⟩ := h
  rw [hleft] at ticks_eq shown
  refine ⟨ticks_eq, ?_, ?_, ?_, ?_, state_eq, ?_⟩
  · rw [valuesOf_append, valuesOf_tickCalls, values, hticks, List.range'_succ, List.flatMap_cons]
  · rw [framesOf_append, framesOf_tickCalls]
    cases isShown with
    | false => exact numbers
    | true => simpa [List.range'_succ] using numbers
  · rw [framesOf_append, framesOf_tickCalls, hticks, List.range'_succ, List.map_append,
      List.map_cons]
    cases isShown with
    | false => exact frames.cons _
    | true => exact frames.cons_cons _
  · intro hnone
    rw [framesOf_append, framesOf_tickCalls, hshown hnone, hidden hnone]
    rfl
  · intro hlast hsome
    rw [framesOf_append, List.map_append, List.getLast?_append, shown hlast hsome]
    rfl

end Goes

/-- **A playback makes its ticks** until the scheduler is at rest or the frames are used up. -/
theorem exists_playFrom [Scalar α] {listener : Listener ε σ α}
    (h : ComesToRest listener time state told last) (presenter : Option (Presenter σ α))
    (start : α) (left : Nat) :
    ∀ {first : Nat} (number : Nat) (clock : FrameClock α) (notes : σ),
      (∀ i, clock.timeOf start i = time i) → first ≤ last → ∃ ticks t calls,
        (playFrom listener presenter start left first number clock) (state first, notes) =
          (.ok ticks, (t, makeAll listener presenter calls notes)) ∧
        Goes presenter time state told last first left number ticks t calls := by
  induction left with
  | zero => exact fun _ _ _ _ hfirst => ⟨_, _, [], rfl, Goes.nil hfirst⟩
  | succ left ih =>
    intro first number clock notes htime hfirst
    have htick := h.tick hfirst presenter notes
    rw [← htime first] at htick
    rcases Nat.lt_or_eq_of_le hfirst with hlt | rfl
    · rw [decide_eq_true hlt] at htick
      obtain ⟨isShown, clock', htime', hshown, hrun⟩ :=
        playFrom_goesOn presenter htick left number
      obtain ⟨ticks, t, calls, hrest, hgoes⟩ := ih (if isShown then number + 1 else number) _ _
        (fun i => (congrFun htime' i).trans (htime i)) hlt
      refine ⟨ticks, t, _, ?_, hgoes.cons hlt hshown⟩
      rw [hrun, hrest, makeAll_append, tickCalls, makeAll_append, htime]
    · rw [decide_eq_false (Nat.lt_irrefl _)] at htick
      refine ⟨_, _, _, ?_, Goes.rests h.idle⟩
      rw [playFrom_rests presenter htick, tickCalls, makeAll_append, htime]

end

end Playback

end CanvasScript
