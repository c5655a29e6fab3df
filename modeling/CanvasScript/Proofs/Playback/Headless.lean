import CanvasScript.Proofs.Playback.Clock
import CanvasScript.Proofs.Playback.Run
import CanvasScript.Proofs.Playback.Trajectory

/-!
# Headless playback

Without rounding errors it is known beforehand how many ticks a playback (`run_playback`) takes: an
animation that starts with it is over with the first frame at or after the end of its time. Where
there are fewer frames than that, the animation is cancelled behind the last of them, where its
course had come.

* `Scheduler.comesToRest`: **ticks of a clock bring a scheduler to rest**, with tick number
  `Scheduler.lastTick`.
* `Played` is what a playback has come to, and which calls it made.
* `run_headless`: **a playback ends**, whatever the rates of its clock, its start and its count of
  frames.

Out of scope: the rounding of doubles, by which an animation may end a tick earlier or later.
-/

namespace CanvasScript

open Scalar
open scoped Exact

/-- The animation with its start at a time. -/
def Animation.startedAt {α : Type} (animation : Animation α) (start : α) : Animation α :=
  { animation with startTime := some start }

namespace Scheduler

variable {ε σ : Type}

/-- An animation that has not started yet starts with a tick. -/
theorem run_tick_unstarted {α : Type} [Scalar α] {listener : Listener ε σ α} {s : Scheduler α}
    {animation : Animation α} (hactivity : s.activity = .animating animation)
    (hunset : animation.startTime = none) (now : α) (notes : σ) :
    (tick listener (.ok now)) (s, notes) =
      (tick listener (.ok now)) (withActivity (.animating (animation.startedAt now)) s, notes) := by
  have hpart : animation.part now = (animation.startedAt now).part now := by
    unfold Animation.part
    rw [hunset]
    rfl
  have hafter : animation.after now = (animation.startedAt now).after now := by
    unfold Animation.after
    rw [hpart, hunset]
    rfl
  have hshown : animation.shown now = (animation.startedAt now).shown now := by
    unfold Animation.shown
    rw [hpart]
    rfl
  rw [run_tick hactivity, run_tick rfl, hafter, hshown]
  rfl

variable {K : Type} [Field K] [LinearOrder K] [FloorRing K] [ScalarFunctions K]

/-- A scheduler is idle, or its animation takes time and has not started yet. -/
def IsReady (s : Scheduler K) : Prop :=
  ∀ {animation}, s.activity = .animating animation →
    animation.startTime = none ∧ 0 < animation.duration

/-- The number of the tick that brings a scheduler to rest. -/
def lastTick (s : Scheduler K) (clock : FrameClock K) : Nat :=
  match s.activity with
  | .idle => 0
  | .animating animation => ⌈animation.duration * clock.targetRate.toScalar / 1000⌉₊

/-- What a tick tells the listener, if an animation starts at `start`. -/
def toldAt (s : Scheduler K) (start now : K) : List K :=
  match s.activity with
  | .idle => []
  | .animating animation => [s.point (animation.course start now)]

/-- The scheduler behind such a tick. -/
def ticked (s : Scheduler K) (start now : K) : Scheduler K :=
  match s.activity with
  | .idle => s
  | .animating animation => s.put (s.point (animation.course start now))
    (if now < start + animation.duration then .animating (animation.startedAt start) else .idle)

/-- The scheduler before each tick of a clock. -/
def beforeTick (s : Scheduler K) (clock : FrameClock K) (start : K) : Nat → Scheduler K
  | 0 => s
  | i + 1 => s.ticked start (clock.timeOf start i)

section

variable {s : Scheduler K} {animation : Animation K}

theorem toldAt_idle (h : s.activity = .idle) (start now : K) : s.toldAt start now = [] := by
  unfold toldAt
  rw [h]

theorem toldAt_animating (h : s.activity = .animating animation) (start now : K) :
    s.toldAt start now = [s.point (animation.course start now)] := by
  unfold toldAt
  rw [h]

theorem ticked_idle (h : s.activity = .idle) (start now : K) : s.ticked start now = s := by
  unfold ticked
  rw [h]

theorem ticked_animating (h : s.activity = .animating animation) (start now : K) :
    s.ticked start now = s.put (s.point (animation.course start now))
      (if now < start + animation.duration then .animating (animation.startedAt start)
        else .idle) := by
  unfold ticked
  rw [h]

/-- Ticks change the value and the activity alone. -/
theorem withActivity_beforeTick (s : Scheduler K) (clock : FrameClock K) (start : K) (ticks : Nat) :
    withActivity .idle (s.beforeTick clock start ticks) =
      s.put (s.beforeTick clock start ticks).value .idle := by
  cases ticks with
  | zero => rfl
  | succ i =>
    rw [beforeTick]
    unfold ticked
    split <;> rfl

/-- Behind a count of ticks the scheduler stands where the listener was told last. -/
theorem value_beforeTick (s : Scheduler K) (clock : FrameClock K) (start : K) (ticks : Nat) :
    (s.beforeTick clock start ticks).value = ((List.range ticks).flatMap fun i =>
      s.toldAt start (clock.timeOf start i)).getLastD s.value := by
  cases ticks with
  | zero => rfl
  | succ i =>
    rw [beforeTick]
    cases hactivity : s.activity with
    | idle =>
      have htold : ((List.range (i + 1)).flatMap fun i =>
          s.toldAt start (clock.timeOf start i)) = [] :=
        List.flatMap_eq_nil_iff.mpr fun i _ => toldAt_idle hactivity start (clock.timeOf start i)
      rw [htold, ticked_idle hactivity]
      rfl
    | animating animation =>
      rw [ticked_animating hactivity, List.range_succ, List.flatMap_append, List.flatMap_singleton,
        toldAt_animating hactivity, List.getLastD_concat]
      rfl

end

variable {s : Scheduler K} {clock : FrameClock K} {listener : Listener ε σ K}

/-- An idle scheduler is at rest with the first tick. -/
theorem comesToRest_idle (hidle : s.activity = .idle) (start : K) :
    Playback.ComesToRest listener (clock.timeOf start) (s.beforeTick clock start)
      (fun i => s.toldAt start (clock.timeOf start i)) 0 where
  tick {i} hi presenter notes := by
    obtain rfl := Nat.le_zero.mp hi
    rw [toldAt_idle hidle, beforeTick, beforeTick, ticked_idle hidle]
    exact run_tick_idle hidle _
  idle := by
    rw [beforeTick, ticked_idle hidle]
    exact hidle

variable [IsStrictOrderedRing K]

/-- **An animation comes to rest with the first frame at or after the end of its time.** -/
theorem comesToRest_animating (haccepts : Accepts listener) (hclock : clock.Regular)
    {animation : Animation K} (hactivity : s.activity = .animating animation)
    (hunset : animation.startTime = none) (hduration : 0 < animation.duration) (start : K) :
    Playback.ComesToRest listener (clock.timeOf start) (s.beforeTick clock start)
      (fun i => s.toldAt start (clock.timeOf start i))
      ⌈animation.duration * clock.targetRate.toScalar / 1000⌉₊ where
  tick {i} hi presenter notes := by
    obtain ⟨notes', hlistener⟩ := haccepts (s.point (animation.course start (clock.timeOf start i)))
      notes
    have hmade : Playback.makeAll listener presenter
        ([s.point (animation.course start (clock.timeOf start i))].map .told) notes = notes' :=
      congrArg Prod.snd hlistener
    have hbefore : ∃ v, (tick listener (.ok (clock.timeOf start i)))
        (s.beforeTick clock start i, notes) = (tick listener (.ok (clock.timeOf start i)))
        (s.put v (.animating (animation.startedAt start)), notes) := by
      cases i with
      | zero =>
        rw [beforeTick, run_tick_unstarted hactivity hunset, FrameClock.timeOf_zero]
        exact ⟨s.value, rfl⟩
      | succ i =>
        -- the tick before was not the last one
        have hgoesOn := (FrameClock.timeOf_lt_iff hclock start animation.duration i).mpr hi
        rw [beforeTick, ticked_animating hactivity, if_pos hgoesOn]
        exact ⟨_, rfl⟩
    obtain ⟨v, hbefore⟩ := hbefore
    rw [toldAt_animating hactivity, beforeTick, ticked_animating hactivity, hmade, hbefore,
      ← decide_eq_decide.mpr (FrameClock.timeOf_lt_iff hclock start animation.duration i)]
    have hstarted : (animation.startedAt start).startTime = some start := rfl
    exact run_tick_accepted hstarted hduration _ v hlistener
  idle := by
    rw [beforeTick, ticked_animating hactivity]
    exact if_neg fun h =>
      lt_irrefl _ ((FrameClock.timeOf_lt_iff hclock start animation.duration _).mp h)

theorem comesToRest (haccepts : Accepts listener) (hclock : clock.Regular) (hready : s.IsReady)
    (start : K) : Playback.ComesToRest listener (clock.timeOf start) (s.beforeTick clock start)
      (fun i => s.toldAt start (clock.timeOf start i)) (s.lastTick clock) := by
  unfold lastTick
  split
  · rename_i hidle
    exact comesToRest_idle hidle start
  · rename_i animation hactivity
    obtain ⟨hunset, hduration⟩ := hready hactivity
    exact comesToRest_animating haccepts hclock hactivity hunset hduration start

end Scheduler

/-! ## Playbacks -/

namespace Playback

variable {ε σ K : Type} [Field K] [LinearOrder K] [FloorRing K] [ScalarFunctions K]

/-- What a playback of a scheduler has come to, if it had `limit` frames: the count of its ticks,
the scheduler behind them, and the calls. -/
structure Played (presenter : Option (Presenter σ K)) (s : Scheduler K) (clock : FrameClock K)
    (start : K) (limit ticks : Nat) (t : Scheduler K) (calls : List (Call K)) : Prop where
  ticks_eq : ticks = min limit (s.lastTick clock + 1)
  /-- Nothing but the value and the activity is changed. -/
  idle : t = s.put t.value .idle
  /-- The listener is told where the course has come at each tick, and nothing more. -/
  values : valuesOf calls =
    (List.range ticks).flatMap fun i => s.toldAt start (clock.timeOf start i)
  value : t.value = (valuesOf calls).getLastD s.value
  /-- An animation that has enough frames ends at its target, brought onto the grid. -/
  target : s.lastTick clock < limit → ∀ {animation}, s.activity = .animating animation →
    s.quantize animation.target = .ok t.value
  /-- With enough frames the last one is shown. -/
  shown : s.lastTick clock < limit → presenter.isSome →
    ((framesOf calls).map Prod.snd).getLast? = some (clock.timeOf start (ticks - 1), t.value)
  hidden : presenter = none → framesOf calls = []
  /-- The frames are numbered without gaps. -/
  numbers : (framesOf calls).map Prod.fst = List.range (framesOf calls).length
  /-- Each is the frame of a tick, with the value behind that tick. -/
  frames : ((framesOf calls).map Prod.snd).Sublist ((List.range ticks).map fun i =>
    (clock.timeOf start i, (s.beforeTick clock start (i + 1)).value))

theorem frameLimit_eq (clock : FrameClock K) {frames : Int} (h : 0 < frames) :
    frameLimit clock frames = .ok frames.toNat := by
  unfold frameLimit
  rw [if_neg (not_le.mpr h), Exact.toScalar?_eq]
  rfl

variable [IsStrictOrderedRing K] {clock : FrameClock K} {listener : Listener ε σ K}
  {s : Scheduler K}

/-- Where it has enough frames an animation ends at its target. -/
theorem quantize_target (hclock : clock.Regular) (hready : s.IsReady) {animation : Animation K}
    (hactivity : s.activity = .animating animation) (start : K) :
    s.quantize animation.target = .ok (s.beforeTick clock start (s.lastTick clock + 1)).value := by
  have hlast : s.lastTick clock =
      ⌈animation.duration * clock.targetRate.toScalar / 1000⌉₊ := by
    unfold Scheduler.lastTick
    rw [hactivity]
  have hend : start + animation.duration ≤ clock.timeOf start (s.lastTick clock) :=
    not_lt.mp fun h => lt_irrefl _
      ((FrameClock.timeOf_lt_iff hclock start animation.duration _).mp (hlast ▸ h))
  rw [Scheduler.quantize_eq, Scheduler.beforeTick, Scheduler.ticked_animating hactivity,
    Animation.course_of_le (hready hactivity).2 hend]
  rfl

/-- A playback has come to what its ticks do. -/
theorem played_of_goes (hclock : clock.Regular) (hready : s.IsReady) {start : K} {limit ticks : Nat}
    {presenter : Option (Presenter σ K)} {t : Scheduler K} {calls : List (Call K)}
    (h : Goes presenter (clock.timeOf start) (s.beforeTick clock start)
      (fun i => s.toldAt start (clock.timeOf start i)) (s.lastTick clock) 0 limit 0 ticks t calls) :
    Played presenter s clock start limit ticks t calls := by
  obtain ⟨hticks, hvalues, hnumbers, hframes, hhidden, rfl, hshown⟩ := h
  rw [Nat.zero_add] at hticks hshown
  rw [Nat.sub_zero, ← List.range_eq_range'] at hvalues hframes
  rw [← List.range_eq_range'] at hnumbers
  have hwhole (hlast : s.lastTick clock < limit) : ticks = s.lastTick clock + 1 := by omega
  exact {
    ticks_eq := hticks
    idle := Scheduler.withActivity_beforeTick s clock start ticks
    values := hvalues
    value := (Scheduler.value_beforeTick s clock start ticks).trans (by rw [hvalues])
    target := fun hlast animation hactivity => by
      rw [hwhole hlast]
      exact quantize_target hclock hready hactivity start
    shown := fun hlast hsome => by
      rw [hshown hlast hsome, hwhole hlast]
      rfl
    hidden := hhidden
    numbers := hnumbers
    frames := hframes }

/-- **A playback ends**, whatever the rates of its clock, its start and its count of frames, also
where the clock was in use before. With every frame that is presented the clock catches up. -/
theorem run_headless {target : Number K} {presented : Option (Number K)}
    (hclock : FrameClock.ofRates target presented = .ok clock) (due : Option K) (start : K)
    {frames : Int} (hframes : 0 < frames) (hready : s.IsReady)
    (haccepts : Scheduler.Accepts listener) (presenter : Option (Presenter σ K))
    (notes : σ) :
    clock.targetRate = target ∧ frameLimit clock frames = .ok frames.toNat ∧
      (∃ ticks t calls,
        (run listener presenter { clock with nextDue := due } start frames.toNat) (s, notes) =
          (.ok ticks, (t, makeAll listener presenter calls notes)) ∧
        Played presenter s clock start frames.toNat ticks t calls) ∧
      ∀ due now, ∃ next, ({ clock with nextDue := due }.present now).2.nextDue = some next ∧
        now < next := by
  obtain ⟨hregular, htarget⟩ := FrameClock.regular_of_ofRates hclock
  refine ⟨htarget, frameLimit_eq clock hframes, ?_, fun due now => ?_⟩
  · obtain ⟨ticks, t, calls, hrun, hgoes⟩ := exists_playFrom
      (Scheduler.comesToRest haccepts hregular hready start) presenter start frames.toNat 0
      { clock with nextDue := due } notes (fun _ => rfl) (Nat.zero_le _)
    exact ⟨ticks, t, calls, hrun, played_of_goes hregular hready hgoes⟩
  · have hregular : ({ clock with nextDue := due } : FrameClock K).Regular :=
      ⟨hregular.targetRate, hregular.presentRate⟩
    obtain ⟨next, hpresent, hnext⟩ := FrameClock.exists_present hregular now
    exact ⟨next, congrArg (fun present => present.2.nextDue) hpresent, hnext.after⟩

/-- A scheduler that is about to rise by one, in a tenth of a second. -/
def rising : Scheduler Rat where
  minimum := 0
  maximum := 1
  animationDuration := 1000
  stepDuration := 1000
  reverses := false
  stepSize := none
  value := 0
  activity := .animating
    { target := 1, origin := 0, startTime := none, duration := 100, easing := .linear }

/-- A presenter that keeps the frames. -/
def keepFrames : Presenter (List (Nat × Rat × Rat)) Rat :=
  fun number now v frames => frames ++ [(number, now, v)]

/-- A listener that accepts every value beside these frames. -/
def acceptBeside : Listener Unit (List (Nat × Rat × Rat)) Rat := fun _ => pure ()

/-- A hundred frames in a second, of which every other one is presented. -/
theorem run_headless_rising :
    ∃ clock, FrameClock.ofRates (.int 100) (some (.int 50)) = .ok clock ∧
      rising.IsReady ∧ clock.targetRate = .int 100 ∧
      frameLimit clock 10000 = .ok 10000 ∧
      (∃ ticks t calls,
        (run acceptBeside (some keepFrames) { clock with nextDue := none } 0 10000) (rising, []) =
          (.ok ticks, (t, makeAll acceptBeside (some keepFrames) calls [])) ∧
        Played (some keepFrames) rising clock 0 10000 ticks t calls) ∧
      ∀ due now, ∃ next, ({ clock with nextDue := due }.present now).2.nextDue = some next ∧
        now < next := by
  have hready : rising.IsReady := by
    rintro _ ⟨⟩
    exact ⟨rfl, by norm_num⟩
  have hclock : FrameClock.ofRates (α := Rat) (.int 100) (some (.int 50)) =
      .ok ⟨.int 100, some (.int 50), none⟩ := rfl
  exact ⟨_, hclock, hready, run_headless hclock none 0 (by decide) hready
    (fun _ notes => ⟨notes, rfl⟩) (some keepFrames) []⟩

end Playback

end CanvasScript
