import CanvasScript.Proofs.Binary64.Locate
import CanvasScript.Proofs.Playback.Position
import CanvasScript.Surface.Recording
import CanvasScript.View

/-!
# Steps of a scheduler

A step (`step_forward` and `step_backward`) goes to the next integer, and is through when ticks have
brought the scheduler to rest. What it is brought to is not the integer but the point of the grid
there, so a step ends at an integer where the grid has one.

* `stepToward` starts a step in a direction, and `stepThrough` goes on with ticks.
* `SettingsOf s t`: nothing changes the settings of a scheduler, nor does it leave its range.
* `Toward s target t`: a step is on its way to a target or stands where the grid has it.
* `toward_tick` and `toward_ticks`: **ticks keep it on its way**.
* `View.step_ends`: **a step of the scheduler of a view ends at an integer beyond the value, brought
  onto the grid**. Where the grid has all integers, as many steps as the timeline has go all the
  way.
* `step_ends_between`: on a grid of three tenths a step ends between two integers.

Out of scope: timelines that are longer than the scalars count. Doubles count below `2 ^ 53`.
-/

namespace CanvasScript

open Scalar

namespace Animation

variable {α : Type} [Scalar α]

/-- The part of its time that has passed at a tick, which starts it if nothing did. -/
def part (animation : Animation α) (time : α) : α :=
  Scheduler.elapsedPart animation (animation.startTime.getD time) time

/-- What is going on after a tick. -/
def after (animation : Animation α) (time : α) : Activity α :=
  if one ≤ animation.part time then .idle
  else .animating { animation with startTime := some (animation.startTime.getD time) }

/-- The value that a tick presents. -/
def shown (animation : Animation α) (time : α) : α :=
  Scheduler.valueAt animation (animation.part time)

theorem shown_of_le {animation : Animation α} {time : α} (h : one ≤ animation.part time) :
    animation.shown time = animation.target := if_pos h

end Animation

namespace Scheduler

variable {α ε σ γ : Type}

/-! ## The settings of a scheduler -/

section

variable [Scalar α]

/-- A scheduler has the settings of another one, and stands in its range. -/
structure SettingsOf (s t : Scheduler α) : Prop where
  settings : t = { s with value := t.value, activity := t.activity }
  mem : s.minimum ≤ t.value ∧ t.value ≤ s.maximum

theorem SettingsOf.quantize_eq {s t : Scheduler α} (h : SettingsOf s t) (v : α) :
    t.quantize v = s.quantize v := by
  rw [h.settings]
  rfl

theorem SettingsOf.minimum_eq {s t : Scheduler α} (h : SettingsOf s t) :
    t.minimum = s.minimum := by
  rw [h.settings]

theorem SettingsOf.maximum_eq {s t : Scheduler α} (h : SettingsOf s t) :
    t.maximum = s.maximum := by
  rw [h.settings]

/-- **Whatever is asked of a scheduler leaves its settings**, and its value is one that holds what
all points of the grid do. -/
theorem follows_value {s : Scheduler α} {P : α → Prop} (hP : ∀ {v w}, s.quantize v = .ok w → P w)
    (listener : Listener ε σ α) :
    Follows (fun t notes notes' => notes = notes' ∧
      t = { s with value := t.value, activity := t.activity } ∧ P t.value) listener listener where
  activity activity hR := ⟨hR.1, congrArg (withActivity activity) hR.2.1, hR.2.2⟩
  present v := by
    rintro t notes _ ⟨rfl, hset, hvalue⟩
    cases hquantize : t.quantize v with
    | error fault =>
      exact ⟨_, t, _, _, run_present_error hquantize, run_present_error hquantize, rfl, hset,
        hvalue⟩
    | ok w =>
      rcases hlistener : (listener w) notes with ⟨error | _, notes'⟩
      · exact ⟨_, t, _, _, run_present_refused hquantize hlistener,
          run_present_refused hquantize hlistener, rfl, hset, hvalue⟩
      · refine ⟨_, _, _, _, run_present_accepted hquantize hlistener,
          run_present_accepted hquantize hlistener, rfl, ?_, hP (v := v) ?_⟩
        · exact congrArg (fun t : Scheduler α => { t with value := w }) hset
        · rw [hset] at hquantize
          exact hquantize

/-- So the value stays in the range. -/
theorem follows_settings [OrderedScalar α] {s : Scheduler α} (h : s.minimum ≤ s.maximum)
    (listener : Listener ε σ α) :
    Follows (fun t notes notes' => notes = notes' ∧ SettingsOf s t) listener listener := by
  have hsettings : (fun t (notes notes' : σ) => notes = notes' ∧ SettingsOf s t) =
      fun t notes notes' => notes = notes' ∧
        t = { s with value := t.value, activity := t.activity } ∧
        s.minimum ≤ t.value ∧ t.value ≤ s.maximum := by
    funext t notes notes'
    exact propext (and_congr_right fun _ => ⟨fun h => ⟨h.settings, h.mem⟩, fun h => ⟨h.1, h.2⟩⟩)
  rw [hsettings]
  exact follows_value (mem_of_quantize h) listener

/-! ## What operations do -/

variable {listener : Listener ε σ α} {s s' : Scheduler α} {notes notes' : σ} {v w : α}

/-- A value is presented when the grid has a point for it that the listener accepts. -/
theorem present_eq_ok : (present listener v) (s, notes) = (.ok (), (s', notes')) ↔
    ∃ w, s.quantize v = .ok w ∧ (listener w) notes = (.ok (), notes') ∧
      s' = { s with value := w } := by
  constructor
  · intro h
    cases hquantize : s.quantize v with
    | error fault =>
      rw [run_present_error hquantize] at h
      cases h
    | ok w =>
      rcases hlistener : (listener w) notes with ⟨error | _, after⟩
      · rw [run_present_refused hquantize hlistener] at h
        cases h
      · rw [run_present_accepted hquantize hlistener] at h
        cases h
        exact ⟨w, rfl, hlistener, rfl⟩
  · rintro ⟨w, hquantize, hlistener, rfl⟩
    exact run_present_accepted hquantize hlistener

theorem presentOrRest_eq_ok : (presentOrRest listener v) (s, notes) = (.ok (), (s', notes')) ↔
    (present listener v) (s, notes) = (.ok (), (s', notes')) := by
  constructor
  · intro h
    rcases hpresent : (present listener v) (s, notes) with ⟨error | _, after⟩
    · -- a failure is thrown on
      have hthrown : (presentOrRest listener v) (s, notes) =
          (.error error, (withActivity .idle after.1, after.2)) := run_tryCatch_error hpresent
      rw [hthrown] at h
      cases h
    · have hdone : (presentOrRest listener v) (s, notes) = (.ok (), after) :=
        run_tryCatch_ok hpresent
      rw [hdone] at h
      exact congrArg _ (Prod.mk.inj h).2
  · exact run_tryCatch_ok

/-- A linear animation that takes no time is over at once. -/
theorem run_animate_instant {duration : α} (h : (!isFinite duration || duration ≤ zero) = true)
    (target : α) (now : Option (Reading α)) :
    (animate listener (.ok target) (.ok duration) .linear now) (s, notes) =
      (present listener (s.clamp (s.clamp target))) (withActivity .idle s, notes) := by
  have hcond : (!isFinite duration || duration ≤ zero || Easing.linear = .none) = true := by
    rw [h]
    rfl
  exact congrFun (if_pos hcond) (withActivity .idle s, notes)

/-- Any other one begins where the scheduler stands. -/
theorem run_animate_timed {duration : α} (h : (!isFinite duration || duration ≤ zero) = false)
    (target : α) (now : Option (Reading α)) :
    (animate listener (.ok target) (.ok duration) .linear now) (s, notes) =
      (do
        let startTime ← now.mapM read
        change (withActivity (.animating {
          target := s.clamp target, origin := s.value, startTime, duration, easing := .linear })) :
        Playing ε σ α Unit) (withActivity .idle s, notes) := by
  have hcond : ¬ (!isFinite duration || duration ≤ zero || Easing.linear = .none) = true := by
    rw [h]
    decide
  exact congrFun (if_neg hcond) (withActivity .idle s, notes)

theorem run_tick_idle (h : s.activity = .idle) (time : Reading α) :
    (tick listener time) (s, notes) = (.ok false, (s, notes)) := by
  refine (run_bind_ok (run_ask _ s notes)).trans ?_
  rw [h]
  rfl

theorem run_tick {animation : Animation α} (h : s.activity = .animating animation) (time : α) :
    (tick listener (.ok time)) (s, notes) =
      (do
        presentOrRest listener (animation.shown time)
        ask (·.activity.isAnimating) : Playing ε σ α Bool)
        (withActivity (animation.after time) s, notes) := by
  refine (run_bind_ok (run_ask _ s notes)).trans ?_
  rw [h]
  unfold Animation.after
  by_cases hdone : one ≤ animation.part time
  · rw [if_pos hdone]
    exact congrFun (if_pos hdone) (s, notes)
  · rw [if_neg hdone]
    exact congrFun (if_neg hdone) (s, notes)

theorem run_tick_unreadable {animation : Animation α} (h : s.activity = .animating animation)
    (fault : ReadFault) :
    (tick listener (.error fault)) (s, notes) = (.error (.reading fault), (s, notes)) := by
  refine (run_bind_ok (run_ask _ s notes)).trans ?_
  rw [h]
  rfl

/-! ## On the way to a target -/

/-- A scheduler is on its way to a target, or stands where the grid has it. -/
def Toward (s : Scheduler α) (target : α) (t : Scheduler α) : Prop :=
  (∃ animation, t.activity = .animating animation ∧ animation.target = target) ∨
    t.activity = .idle ∧ s.quantize target = .ok t.value

/-- At rest a step stands where the grid has its target. -/
theorem Toward.quantize_of_idle {target : α} {t : Scheduler α} (h : Toward s target t)
    (hidle : t.activity = .idle) : s.quantize target = .ok t.value := by
  rcases h with ⟨animation, hanimating, -⟩ | ⟨-, hquantize⟩
  · rw [hidle] at hanimating
    cases hanimating
  · exact hquantize

/-- What is animated goes to the target of the step. -/
theorem Toward.target_of_animating {target : α} {t : Scheduler α} (h : Toward s target t)
    {animation : Animation α} (hactivity : t.activity = .animating animation) :
    animation.target = target := by
  rcases h with ⟨other, hother, htarget⟩ | ⟨hidle, -⟩
  · rw [hactivity] at hother
    cases hother
    exact htarget
  · rw [hactivity] at hidle
    cases hidle

/-- An animation to a target of the range starts on the way. -/
theorem toward_animate {t t' : Scheduler α} (hset : SettingsOf s t) {target : α}
    (hclamp : t.clamp target = target) {duration : α} {now : Option (Reading α)}
    (h : (animate listener (.ok target) (.ok duration) .linear now) (t, notes) =
      (.ok (), (t', notes'))) : Toward s target t' := by
  cases hinstant : (!isFinite duration || decide (duration ≤ zero)) with
  | true =>
    rw [run_animate_instant hinstant, hclamp, hclamp] at h
    obtain ⟨w, hquantize, -, rfl⟩ := present_eq_ok.mp h
    exact .inr ⟨rfl, (hset.quantize_eq target).symm.trans hquantize⟩
  | false =>
    rw [run_animate_timed hinstant, hclamp] at h
    obtain ⟨startTime, ⟨t₁, notes₁⟩, -, h⟩ := run_bind_eq_ok.mp h
    cases h
    exact .inl ⟨_, rfl, rfl⟩

/-- **A tick keeps a scheduler on its way.** -/
theorem toward_tick {t t' : Scheduler α} (hset : SettingsOf s t) {target : α}
    (hway : Toward s target t) {time : Reading α} {goesOn : Bool}
    (h : (tick listener time) (t, notes) = (.ok goesOn, (t', notes'))) : Toward s target t' := by
  rcases hway with ⟨animation, hactivity, htarget⟩ | ⟨hidle, hquantize⟩
  · cases time with
    | error fault =>
      rw [run_tick_unreadable hactivity] at h
      cases h
    | ok time =>
      rw [run_tick hactivity] at h
      obtain ⟨_, ⟨t₁, notes₁⟩, hpresent, h⟩ := run_bind_eq_ok.mp h
      cases h
      obtain ⟨w, hquantize, -, rfl⟩ := present_eq_ok.mp (presentOrRest_eq_ok.mp hpresent)
      by_cases hdone : one ≤ animation.part time
      · rw [Animation.shown_of_le hdone, htarget] at hquantize
        exact .inr ⟨if_pos hdone, (hset.quantize_eq target).symm.trans hquantize⟩
      · exact .inl ⟨_, if_neg hdone, htarget⟩
  · rw [run_tick_idle hidle] at h
    cases h
    exact .inr ⟨hidle, hquantize⟩

/-- Ticks at some times. -/
def ticks (listener : Listener ε σ α) (times : List (Reading α)) : Playing ε σ α Unit :=
  times.forM fun time => do
    let _ ← tick listener time

/-- **Ticks keep a scheduler on its way**, one after another. -/
theorem toward_ticks [OrderedScalar α] (hrange : s.minimum ≤ s.maximum) {target : α}
    (times : List (Reading α)) {t t' : Scheduler α} {notes notes' : σ} (hset : SettingsOf s t)
    (hway : Toward s target t)
    (h : (ticks listener times) (t, notes) = (.ok (), (t', notes'))) :
    SettingsOf s t' ∧ Toward s target t' := by
  induction times generalizing t notes with
  | nil =>
    cases h
    exact ⟨hset, hway⟩
  | cons time rest ih =>
    obtain ⟨_, ⟨t₁, notes₁⟩, hfirst, hrest⟩ := run_bind_eq_ok.mp h
    obtain ⟨goesOn, ⟨t₁, notes₁⟩, htick, hfirst⟩ := run_bind_eq_ok.mp hfirst
    cases hfirst
    refine ih ?_ (toward_tick hset hway htick) hrest
    obtain ⟨_, t₂, _, notes₂, hsame, -, -, hset'⟩ :=
      (follows_settings hrange listener).tick time t notes notes ⟨rfl, hset⟩
    rw [htick] at hsame
    cases hsame
    exact hset'

/-! ## Steps -/

/-- An integer position lies beyond a value in a direction, or is the end of the positions up to
`last` where the value is there already. -/
def IsBeyond (direction : Direction) (last : Nat) (v : α) (n : Nat) : Prop :=
  match direction with
  | .forward => v < ofInt n ∨ n = last ∧ ofInt last ≤ v
  | .backward => ofInt n < v ∨ n = 0 ∧ v ≤ zero

/-- A step to the next integer in a direction. -/
def stepToward (direction : Direction) (listener : Listener ε σ α) (now : Option (Reading α)) :
    Playing ε σ α Unit :=
  match direction with
  | .forward => stepForward listener now
  | .backward => stepBackward listener now

/-- A step in a direction, and ticks behind it. -/
def stepThrough (direction : Direction) (listener : Listener ε σ α) (now : Option (Reading α))
    (times : List (Reading α)) : Playing ε σ α Unit := do
  stepToward direction listener now
  ticks listener times

/-- An integer of the range is left where it is. -/
theorem clamp_ofInt {last : Nat} (hlocates : LocatesTo α last) (hminimum : s.minimum = zero)
    (hmaximum : s.maximum = ofInt last) {k : Int} (hk : 0 ≤ k) (hkn : k ≤ last) :
    s.clamp (ofInt k) = ofInt k := by
  unfold clamp
  rw [hminimum, hmaximum]
  exact (hlocates.counts.mono (by omega)).clamp hk hkn

/-- An end of a range is a point of the grid. -/
theorem quantize_end {k : Int} (hself : (ofInt k : α) ≤ ofInt k)
    (hclamp : s.clamp (ofInt k) = ofInt k) (hend : s.minimum = ofInt k ∨ s.maximum = ofInt k) :
    s.quantize (ofInt k) = .ok (ofInt k) := by
  have hsame : same (ofInt k : α) (ofInt k) = true := by
    unfold same
    rw [decide_eq_true hself]
    rfl
  unfold quantize
  cases s.stepSize with
  | none => exact congrArg Except.ok hclamp
  | some step =>
    simp only
    rw [hclamp]
    refine if_pos (Bool.or_eq_true_iff.mpr ?_)
    rcases hend with hend | hend <;> rw [hend]
    · exact .inl hsame
    · exact .inr hsame

/-- **A step starts an animation to an integer beyond the value.** -/
theorem exists_run_stepToward [OrderedScalar α] {last : Nat} (hlocates : LocatesTo α last)
    (hminimum : s.minimum = zero) (hmaximum : s.maximum = ofInt last) {t : Scheduler α}
    (hset : SettingsOf s t) (direction : Direction) :
    ∃ n, n ≤ last ∧ IsBeyond direction last t.value n ∧ t.clamp (ofInt n) = ofInt n ∧
      ∀ (listener : Listener ε σ α) (notes : σ) (now : Option (Reading α)),
        (stepToward direction listener now) (t, notes) =
          (animate listener (.ok (ofInt n)) (.ok t.stepDuration) .linear now) (t, notes) := by
  have hmem := hset.mem
  rw [hminimum, hmaximum] at hmem
  have hzero : t.minimum = zero := hset.minimum_eq.trans hminimum
  have hlast : t.maximum = ofInt last := hset.maximum_eq.trans hmaximum
  have hclamp {k : Int} (hk : 0 ≤ k) (hkn : k ≤ last) : t.clamp (ofInt k) = ofInt k :=
    clamp_ofInt hlocates hzero hlast hk hkn
  cases direction with
  | forward =>
    obtain ⟨target, k, hnext, hleast, hk, hkn, hbeyond⟩ :=
      hlocates.exists_nextInteger (by omega) hmem.1 hmem.2
    obtain ⟨n, rfl⟩ := Int.eq_ofNat_of_zero_le hk
    refine ⟨n, by omega, hbeyond.imp_right fun h => ⟨by omega, h.2⟩, hclamp hk hkn, ?_⟩
    intro listener notes now
    refine (run_bind_ok (run_ask id t notes)).trans
      ((run_bind_ok (run_computed hnext t notes)).trans ?_)
    show (animate listener (.ok (least t.maximum target)) _ _ _) _ = _
    rw [hlast, hleast]
    rfl
  | backward =>
    obtain ⟨target, k, hprevious, hgreatest, hk, hkn, hbeyond⟩ :=
      hlocates.exists_previousInteger hmem.1 hmem.2
    obtain ⟨n, rfl⟩ := Int.eq_ofNat_of_zero_le hk
    refine ⟨n, by omega, hbeyond.imp_right fun h => ⟨by omega, h.2⟩, hclamp hk hkn, ?_⟩
    intro listener notes now
    refine (run_bind_ok (run_ask id t notes)).trans
      ((run_bind_ok (run_computed hprevious t notes)).trans ?_)
    show (animate listener (.ok (greatest t.minimum target)) _ _ _) _ = _
    rw [hzero, hgreatest]
    rfl

/-- A listener that refuses nothing. -/
def Accepts (listener : Listener ε σ α) : Prop :=
  ∀ v notes, ∃ notes', (listener v) notes = (.ok (), notes')

/-- Where steps from a state end: at an integer position, brought onto the grid. -/
structure StepsEndAt (s : Scheduler α) (direction : Direction) (listener : Listener ε σ α)
    (state : Scheduler α × σ) (n : Nat) : Prop where
  /-- A step that is through stands there. -/
  ends : ∀ now times t notes, (stepThrough direction listener now times) state =
    (.ok (), (t, notes)) → t.activity = .idle → s.quantize (ofInt n) = .ok t.value
  /-- A step starts if the grid has a point there. -/
  starts : Accepts listener → ∀ w, s.quantize (ofInt n) = .ok w → ∀ now : Option α,
    ∃ t notes, (stepToward direction listener (now.map .ok)) state = (.ok (), (t, notes))
  /-- A tick at the end of its time brings it to rest there. -/
  rests : Accepts listener → ∀ w, s.quantize (ofInt n) = .ok w → ∀ now times t notes animation,
    (stepThrough direction listener now times) state = (.ok (), (t, notes)) →
    t.activity = .animating animation → ∀ time, one ≤ animation.part time → ∃ notes',
      (tick listener (.ok time)) (t, notes) =
        (.ok false, ({ t with value := w, activity := .idle }, notes'))

/-- Steps in a direction that are through, one after another. -/
inductive StepsThrough (direction : Direction) (listener : Listener ε σ α) :
    Nat → Scheduler α × σ → Scheduler α × σ → Prop where
  | refl (state : Scheduler α × σ) : StepsThrough direction listener 0 state state
  | step {count : Nat} {before between after : Scheduler α × σ} (now : Option (Reading α))
    (times : List (Reading α)) : StepsThrough direction listener count before between →
    (stepThrough direction listener now times) between = (.ok (), after) →
    after.1.activity = .idle → StepsThrough direction listener (count + 1) before after

/-- A value has come a count of positions through a range up to `last`. -/
def HasCome (direction : Direction) (last count : Nat) (v : α) : Prop :=
  match direction with
  | .forward => ofInt (min count last : Nat) ≤ v
  | .backward => v ≤ ofInt (last - count : Nat)

section

variable [OrderedScalar α] {last : Nat} {direction : Direction} {t : Scheduler α}

theorem range_of_locatesTo (hlocates : LocatesTo α last) (hminimum : s.minimum = zero)
    (hmaximum : s.maximum = ofInt last) : s.minimum ≤ s.maximum := by
  rw [hminimum, hmaximum]
  exact hlocates.ofInt_le le_rfl (by omega) le_rfl

/-- To an integer beyond the value it is one position more, at least. -/
theorem hasCome_of_isBeyond (hlocates : LocatesTo α last) {count n : Nat} (hn : n ≤ last)
    (hcome : HasCome direction last count v) (hbeyond : IsBeyond direction last v n) :
    HasCome direction last (count + 1) (ofInt n : α) := by
  cases direction with
  | forward =>
    refine hlocates.ofInt_le (by omega) ?_ (by omega)
    rcases hbeyond with hlt | ⟨rfl, -⟩
    · have := hlocates.lt_of_le_of_lt (by omega) (by omega) (by omega) (by omega) hcome hlt
      omega
    · omega
  | backward =>
    refine hlocates.ofInt_le (by omega) ?_ (by omega)
    rcases hbeyond with hlt | ⟨rfl, -⟩
    · have := hlocates.lt_of_lt_of_le (by omega) (by omega) (by omega) (by omega) hlt hcome
      omega
    · omega

/-- **A step is on its way to where it started to**, however many ticks it has had. -/
theorem toward_stepThrough (hrange : s.minimum ≤ s.maximum) (hset : SettingsOf s t) {n : Nat}
    (hclamp : t.clamp (ofInt n) = ofInt n)
    (hrun : ∀ (notes : σ) (now : Option (Reading α)),
      (stepToward direction listener now) (t, notes) =
        (animate listener (.ok (ofInt n)) (.ok t.stepDuration) .linear now) (t, notes))
    {now : Option (Reading α)} {times : List (Reading α)} {t' : Scheduler α}
    (h : (stepThrough direction listener now times) (t, notes) = (.ok (), (t', notes'))) :
    SettingsOf s t' ∧ Toward s (ofInt n) t' := by
  obtain ⟨_, ⟨t₁, notes₁⟩, hstep, hticks⟩ := run_bind_eq_ok.mp h
  rw [hrun] at hstep
  obtain ⟨_, t₂, _, notes₂, hsame, -, -, hset'⟩ := (follows_settings hrange listener).animate
    (.ok (ofInt n)) (.ok t.stepDuration) .linear now t notes notes ⟨rfl, hset⟩
  rw [hstep] at hsame
  cases hsame
  exact toward_ticks hrange times hset' (toward_animate hset hclamp hstep) hticks

/-- **Steps end at the next integer**, which has its place on the grid. -/
theorem exists_stepsEndAt (hlocates : LocatesTo α last) (hminimum : s.minimum = zero)
    (hmaximum : s.maximum = ofInt last) (hset : SettingsOf s t) (direction : Direction)
    (listener : Listener ε σ α) (notes : σ) :
    ∃ n, n ≤ last ∧ IsBeyond direction last t.value n ∧
      StepsEndAt s direction listener (t, notes) n := by
  have hrange := range_of_locatesTo hlocates hminimum hmaximum
  obtain ⟨n, hn, hbeyond, hclamp, hrun⟩ :=
    exists_run_stepToward hlocates hminimum hmaximum hset direction
  refine ⟨n, hn, hbeyond, ?_, ?_, ?_⟩
  · intro now times t' notes' h hidle
    exact (toward_stepThrough hrange hset hclamp (hrun listener) h).2.quantize_of_idle hidle
  · intro haccepts w hquantize now
    rw [hrun]
    cases hinstant : (!isFinite t.stepDuration || decide (t.stepDuration ≤ zero)) with
    | true =>
      obtain ⟨notes', hlistener⟩ := haccepts w notes
      rw [run_animate_instant hinstant, hclamp, hclamp]
      exact ⟨_, _, present_eq_ok.mpr
        ⟨w, (hset.quantize_eq _).trans hquantize, hlistener, rfl⟩⟩
    | false =>
      rw [run_animate_timed hinstant]
      cases now with
      | none => exact ⟨_, _, rfl⟩
      | some now => exact ⟨_, _, rfl⟩
  · intro haccepts w hquantize now times t' notes' animation h hactivity time hdone
    obtain ⟨hset', hway⟩ := toward_stepThrough hrange hset hclamp (hrun listener) h
    obtain ⟨after, hlistener⟩ := haccepts w notes'
    refine ⟨after, ?_⟩
    have hafter : animation.after time = .idle := if_pos hdone
    have hpresent : (presentOrRest listener (ofInt n)) (withActivity .idle t', notes') =
        (.ok (), ({ withActivity .idle t' with value := w }, after)) :=
      presentOrRest_eq_ok.mpr
        (present_eq_ok.mpr ⟨w, (hset'.quantize_eq _).trans hquantize, hlistener, rfl⟩)
    rw [run_tick hactivity, Animation.shown_of_le hdone, hafter, hway.target_of_animating hactivity]
    exact run_bind_ok hpresent

/-- **Where the grid has all integers, every step comes a position further**, at least. -/
theorem hasCome_stepsThrough (hlocates : LocatesTo α last) (hminimum : s.minimum = zero)
    (hmaximum : s.maximum = ofInt last)
    (hgrid : ∀ n : Nat, n ≤ last → s.quantize (ofInt n) = .ok (ofInt n)) (hset : SettingsOf s t)
    {count : Nat} {state : Scheduler α × σ}
    (h : StepsThrough direction listener count (t, notes) state) :
    SettingsOf s state.1 ∧ HasCome direction last count state.1.value := by
  have hrange := range_of_locatesTo hlocates hminimum hmaximum
  have hmem := hset.mem
  rw [hminimum, hmaximum] at hmem
  generalize hstart : (t, notes) = start at h
  induction h with
  | refl start =>
    subst hstart
    refine ⟨hset, ?_⟩
    cases direction with
    | forward =>
      show ofInt (min 0 last : Nat) ≤ t.value
      rw [Nat.zero_min]
      exact hmem.1
    | backward => exact hmem.2
  | step now times hsteps hstep hidle ih =>
    rename_i count start between after
    obtain ⟨hset', hcome⟩ := ih hstart
    obtain ⟨n, hn, hbeyond, hclamp, hrun⟩ :=
      exists_run_stepToward hlocates hminimum hmaximum hset' direction
    obtain ⟨hafter, hway⟩ := toward_stepThrough hrange hset' hclamp (hrun listener) hstep
    have hquantize := hway.quantize_of_idle hidle
    rw [hgrid n hn] at hquantize
    rw [← Except.ok.inj hquantize]
    exact ⟨hafter, hasCome_of_isBeyond hlocates hn hcome hbeyond⟩

/-- Both ends of a range are points of the grid. -/
theorem quantize_ends (hlocates : LocatesTo α last)
    (hminimum : s.minimum = zero) (hmaximum : s.maximum = ofInt last) :
    s.quantize (ofInt 0) = .ok (ofInt 0) ∧ s.quantize (ofInt last) = .ok (ofInt last) :=
  ⟨quantize_end (hlocates.ofInt_le_self le_rfl (by omega))
      (clamp_ofInt hlocates hminimum hmaximum le_rfl (by omega)) (.inl hminimum),
    quantize_end (hlocates.ofInt_le_self (by omega) le_rfl)
      (clamp_ofInt hlocates hminimum hmaximum (by omega) le_rfl) (.inr hmaximum)⟩

end

end

end Scheduler

namespace View

open Scheduler

variable {α ε σ ρ : Type} [Written α] [OrderedScalar α]

/-- **A step of the scheduler of a view ends at an integer beyond the value**, brought onto the
grid. The ends of the timeline are on it, and where it has all integers, every step comes a position
further. This holds of every state that the scheduler gets into. -/
theorem step_ends {view : View α ρ} {s : Scheduler α} (hs : view.scheduler = .ok s)
    (hlocates : LocatesTo α view.length) (listener : Listener ε σ α) (notes : σ)
    (operations : List (Operation α)) {t : Scheduler α} {notes' : σ}
    (hrun : runAll listener operations (s, notes) = (t, notes')) (direction : Direction) :
    (∃ n, n ≤ view.length ∧ IsBeyond direction view.length t.value n ∧
      StepsEndAt s direction listener (t, notes') n) ∧
    s.quantize (ofInt 0) = .ok (ofInt 0) ∧
    s.quantize (ofInt view.length) = .ok (ofInt view.length) ∧
    ((∀ n : Nat, n ≤ view.length → s.quantize (ofInt n) = .ok (ofInt n)) →
      ∀ count state, StepsThrough direction listener count (t, notes') state →
        HasCome direction view.length count state.1.value) := by
  obtain ⟨hminimum, hmaximum, hvalue⟩ := ofSetup_eq_ok hs
  have hminimum : s.minimum = zero := (Except.ok.inj hminimum).symm
  have hmaximum : s.maximum = ofInt view.length := (Except.ok.inj hmaximum).symm
  have hrange := range_of_locatesTo hlocates hminimum hmaximum
  have hstart : SettingsOf s s := by
    refine ⟨rfl, ?_⟩
    rw [hvalue]
    exact ⟨OrderedScalar.le_self_left hrange, hrange⟩
  obtain ⟨_, _, _, hreached, -, -, hset⟩ :=
    runAll_alike (follows_settings hrange listener) operations (n := notes) ⟨rfl, hstart⟩
  rw [hrun] at hreached
  cases hreached
  obtain ⟨hfirst, hlast⟩ := quantize_ends hlocates hminimum hmaximum
  refine ⟨exists_stepsEndAt hlocates hminimum hmaximum hset direction listener notes', hfirst,
    hlast, fun hgrid count state hsteps => ?_⟩
  exact (hasCome_stepsThrough hlocates hminimum hmaximum hgrid hset hsteps).2

end View

/-- A view of a timeline whose positions are on a grid. -/
def viewOnGrid (timeline : Timeline Float) (playStepSize : Float) : View Float (Recording Float)
    where
  timeline := timeline
  settings := { Settings.default with playStepSize }
  showsFinal := false
  direction := .forward
  lastTrace := Trace.empty .forward
  surface := Recording.start Affine.identity

/-- A listener that accepts every value. -/
def acceptAll : Listener Unit Unit Float := fun _ => pure ()

/-- A grid of quarters has all integers, so from between two of them steps go to the end. -/
theorem step_ends_quarters :
    ∃ timeline s t, Timeline.compile ⟨"black", "black"⟩ [.save, .restore] = .ok timeline ∧
      (viewOnGrid timeline 0.25).scheduler = .ok s ∧
      Scheduler.runAll acceptAll [.setValue (.ok 0.6)] (s, ()) = (t, ()) ∧
      zero < t.value ∧ t.value < one ∧
      (∃ n, n ≤ 2 ∧ Scheduler.IsBeyond .forward 2 t.value n ∧
        Scheduler.StepsEndAt s .forward acceptAll (t, ()) n) ∧
      s.quantize (ofInt 0) = .ok (ofInt 0) ∧ s.quantize (ofInt 2) = .ok (ofInt 2) ∧
      ∀ count state, Scheduler.StepsThrough .forward acceptAll count (t, ()) state →
        Scheduler.HasCome .forward 2 count state.1.value := by
  have hcheck : ((Timeline.compile ⟨"black", "black"⟩ [.save, .restore]).toOption.bind
      fun timeline => (viewOnGrid timeline 0.25).scheduler.toOption.map fun s =>
        let t := (Scheduler.runAll acceptAll [.setValue (.ok 0.6)] (s, ())).1
        decide (timeline.length = 2 ∧ zero < t.value ∧ t.value < one ∧
          (s.quantize (ofInt 1)).toOption = some (ofInt 1))) = some true := by decide +kernel
  obtain ⟨timeline, hcompile, hcheck⟩ := Option.bind_eq_some_iff.mp hcheck
  obtain ⟨s, hs, hcheck⟩ := Option.map_eq_some_iff.mp hcheck
  obtain ⟨hlength, hpos, hlt, hone⟩ := of_decide_eq_true hcheck
  have hs := toOption_eq_some.mp hs
  have hview : (viewOnGrid timeline 0.25).length = 2 := hlength
  have hlocates : Scheduler.LocatesTo Float (viewOnGrid timeline 0.25).length := by
    rw [hview]
    exact Binary64.locatesTo (by decide) (by decide)
  obtain ⟨hends, hfirst, hlast, hcome⟩ :=
    View.step_ends hs hlocates acceptAll () [.setValue (.ok 0.6)] rfl .forward
  rw [hview] at hends hlast hcome
  have hgrid : ∀ n : Nat, n ≤ 2 → s.quantize (ofInt n) = .ok (ofInt n) := by
    intro n hn
    obtain rfl | rfl | rfl : n = 0 ∨ n = 1 ∨ n = 2 := by omega
    · exact hfirst
    · exact toOption_eq_some.mp hone
    · exact hlast
  exact ⟨timeline, s, _, toOption_eq_some.mp hcompile, hs, rfl, hpos, hlt, hends, hfirst, hlast,
    hcome hgrid⟩

/-- On a grid of three tenths the first step ends at nine of them. -/
theorem step_ends_between :
    ∃ timeline s t, Timeline.compile ⟨"black", "black"⟩ [.save, .restore] = .ok timeline ∧
      (viewOnGrid timeline 0.3).scheduler = .ok s ∧
      (Scheduler.stepThrough .forward acceptAll (some (.ok 0)) [.ok 2000]) (s, ()) =
        (.ok (), (t, ())) ∧
      t.activity = .idle ∧ t.value < one ∧ whole? t.value = none := by
  have hcheck : ((Timeline.compile ⟨"black", "black"⟩ [.save, .restore]).toOption.bind
      fun timeline => (viewOnGrid timeline 0.3).scheduler.toOption.map fun s =>
        let ended :=
          (Scheduler.stepThrough .forward acceptAll (some (.ok 0)) [.ok 2000]) (s, ())
        decide (ended.1.toBool = true ∧ ended.2.1.activity = .idle ∧ ended.2.1.value < one ∧
          whole? ended.2.1.value = none)) = some true := by decide +kernel
  obtain ⟨timeline, hcompile, hcheck⟩ := Option.bind_eq_some_iff.mp hcheck
  obtain ⟨s, hs, hcheck⟩ := Option.map_eq_some_iff.mp hcheck
  obtain ⟨hdone, hidle, hlt, hwhole⟩ := of_decide_eq_true hcheck
  refine ⟨timeline, s, _, toOption_eq_some.mp hcompile, toOption_eq_some.mp hs, ?_, hidle, hlt,
    hwhole⟩
  rcases hrun : (Scheduler.stepThrough .forward acceptAll (some (.ok 0)) [.ok 2000]) (s, ())
    with ⟨error | _, state⟩
  · rw [hrun] at hdone
    cases hdone
  · rfl

end CanvasScript
