import CanvasScript.Proofs.Playback.Grid
import CanvasScript.Proofs.Playback.Stepping
import Mathlib.Algebra.Order.Ring.Pow

/-!
# The trajectory of an animation

Without rounding errors an animation (`animate_to`) stands at each tick where its easing says for
that time, brought onto the grid, however many ticks it had before. What the listener is told goes
from where the scheduler stood toward the target and not beyond it: the grid keeps the order of the
positions, and the scheduler stood on it.

* `Easing.course` is where an animation has come at a time, before it is brought onto the grid.
* `Along origin goal values`: values go from an origin toward a goal and not beyond it. The course
  does (`Animation.along_course`).
* `run_tick_accepted` and `run_tickAll_animating`: **a tick shows the point for its time**, and so
  does each of a schedule of ticks.
* `settings_of_runAll` and `onGrid_of_runAll`: a scheduler keeps its settings and stands on its
  grid, whatever was asked of it.
* `animateTo_course`: **an animation follows its course**, whatever the schedule of ticks.

Out of scope: the rounding of doubles.
-/

namespace CanvasScript

open Scalar
open scoped Exact

variable {K : Type} [Field K] [LinearOrder K] [FloorRing K] [ScalarFunctions K]

/-! ## Easings -/

namespace Easing

theorem cubic_eq [IsStrictOrderedRing K] (t : K) :
    cubic t = if t < 1 / 2 then 4 * t ^ 3 else 1 - (2 - 2 * t) ^ 3 / 2 := by
  have hhalf : (half : K) = 1 / 2 := by
    show ((1 / 2 : Rat) : K) = 1 / 2
    norm_num
  have hcube (x : K) : Scalar.cube x = x ^ 3 := rfl
  have htwo : (two : K) = 2 := Int.cast_ofNat 2
  have hfour : (ofInt 4 : K) = 4 := Int.cast_ofNat 4
  unfold cubic
  rw [hhalf, hcube, htwo, hfour, Exact.one_eq]
  congr 1
  · ring
  · ring

variable [IsStrictOrderedRing K]

theorem cubic_mono : Monotone (cubic (α := K)) := by
  have hpow : Monotone fun x : K => x ^ 3 := (Odd.strictMono_pow (by decide)).monotone
  intro t u htu
  rw [cubic_eq, cubic_eq]
  split_ifs with ht hu hu
  · have := hpow htu
    dsimp only at this
    linarith
  · -- on both sides of the middle the curve stays on its side of one half
    have hlow : t ^ 3 ≤ (1 / 2) ^ 3 := hpow ht.le
    have hhigh : (2 - 2 * u) ^ 3 ≤ 1 ^ 3 := hpow (by linarith)
    norm_num at hlow hhigh
    linarith
  · exact absurd (htu.trans_lt hu) ht
  · have : (2 - 2 * u) ^ 3 ≤ (2 - 2 * t) ^ 3 := hpow (by linarith)
    linarith

theorem apply_mono (easing : Easing) : Monotone (easing.apply (α := K)) := by
  cases easing with
  | cubicInOut => exact cubic_mono
  | linear | constantSpeed | none => exact monotone_id

theorem apply_zero (easing : Easing) : easing.apply (0 : K) = 0 := by
  cases easing with
  | cubicInOut =>
    show cubic (0 : K) = 0
    rw [cubic_eq]
    norm_num
  | linear | constantSpeed | none => rfl

theorem apply_one (easing : Easing) : easing.apply (1 : K) = 1 := by
  cases easing with
  | cubicInOut =>
    show cubic (1 : K) = 1
    rw [cubic_eq]
    norm_num
  | linear | constantSpeed | none => rfl

end Easing

/-! ## The course of an animation -/

/-- Values go from an origin toward a goal, without turning and not beyond it. -/
def Along (origin goal : K) (values : List K) : Prop :=
  origin ≤ goal ∧ (origin :: values).Pairwise (· ≤ ·) ∧ (∀ v ∈ values, v ≤ goal) ∨
    goal ≤ origin ∧ (origin :: values).Pairwise (· ≥ ·) ∧ ∀ v ∈ values, goal ≤ v

omit [Field K] [FloorRing K] [ScalarFunctions K] in
theorem Along.sublist {origin goal : K} {values some : List K} (h : Along origin goal values)
    (hsome : some.Sublist values) : Along origin goal some := by
  rcases h with ⟨hle, hsorted, hgoal⟩ | ⟨hle, hsorted, hgoal⟩
  · exact .inl ⟨hle, hsorted.sublist (hsome.cons_cons origin), fun v hv => hgoal v (hsome.mem hv)⟩
  · exact .inr ⟨hle, hsorted.sublist (hsome.cons_cons origin), fun v hv => hgoal v (hsome.mem hv)⟩

omit [Field K] [FloorRing K] [ScalarFunctions K] in
theorem Along.map {origin goal : K} {values : List K} (h : Along origin goal values) {f : K → K}
    (hf : Monotone f) : Along (f origin) (f goal) (values.map f) := by
  rcases h with ⟨hle, hsorted, hgoal⟩ | ⟨hle, hsorted, hgoal⟩
  · refine .inl ⟨hf hle, ?_, List.forall_mem_map.mpr fun v hv => hf (hgoal v hv)⟩
    rw [← List.map_cons, List.pairwise_map]
    exact hsorted.imp fun h => hf h
  · refine .inr ⟨hf hle, ?_, List.forall_mem_map.mpr fun v hv => hf (hgoal v hv)⟩
    rw [← List.map_cons, List.pairwise_map]
    exact hsorted.imp fun h => hf h

namespace Animation

/-- Where an animation stands at a time if it started at another one, before it is brought onto the
grid. -/
def course (animation : Animation K) (start now : K) : K :=
  animation.origin + (animation.target - animation.origin) *
    animation.easing.apply (unitClamp ((now - start) / animation.duration))

variable [IsStrictOrderedRing K] {animation : Animation K} {start now : K}

theorem part_eq (hstart : animation.startTime = some start) (hduration : 0 < animation.duration)
    (now : K) : animation.part now = unitClamp ((now - start) / animation.duration) := by
  unfold part Scheduler.elapsedPart
  rw [hstart, Option.getD_some, Exact.least_eq, Exact.greatest_eq, Exact.zero_eq, Exact.one_eq,
    Exact.unitClamp_eq, min_comm, ← max_div_div_right hduration.le, zero_div]

theorem one_le_iff (hduration : 0 < animation.duration) :
    1 ≤ unitClamp ((now - start) / animation.duration) ↔ start + animation.duration ≤ now := by
  rw [Exact.unitClamp_eq, le_min_iff, le_max_iff, le_div_iff₀ hduration, one_mul,
    le_sub_iff_add_le']
  simp

/-- At the end of its time an animation stands at its target. -/
theorem course_of_le (hduration : 0 < animation.duration)
    (h : start + animation.duration ≤ now) : animation.course start now = animation.target := by
  have hone : unitClamp ((now - start) / animation.duration) = 1 := by
    refine le_antisymm ?_ ((one_le_iff hduration).mpr h)
    rw [Exact.unitClamp_eq]
    exact min_le_left _ _
  unfold course
  rw [hone, Easing.apply_one, mul_one, add_sub_cancel]

/-- An animation goes on until the end of its time. -/
theorem after_eq (hstart : animation.startTime = some start) (hduration : 0 < animation.duration)
    (now : K) : animation.after now =
      if now < start + animation.duration then .animating animation else .idle := by
  have hdone : one ≤ animation.part now ↔ start + animation.duration ≤ now := by
    rw [part_eq hstart hduration, Exact.one_eq, one_le_iff hduration]
  unfold after
  by_cases h : now < start + animation.duration
  · rw [if_pos h, if_neg (mt hdone.mp (not_le.mpr h)), hstart, Option.getD_some, ← hstart]
  · rw [if_neg h, if_pos (hdone.mpr (not_lt.mp h))]

theorem shown_eq (hstart : animation.startTime = some start) (hduration : 0 < animation.duration)
    (now : K) : animation.shown now = animation.course start now := by
  unfold shown Scheduler.valueAt
  rw [part_eq hstart hduration, Exact.one_eq]
  split_ifs with hdone
  · exact (course_of_le hduration ((one_le_iff hduration).mp hdone)).symm
  · rfl

/-- The part of the way that is done grows with the time, from nothing to all. -/
theorem apply_unitClamp_mono (animation : Animation K) (hduration : 0 < animation.duration)
    (start : K) :
    Monotone fun now =>
      animation.easing.apply (unitClamp ((now - start) / animation.duration)) := by
  intro now later hle
  refine animation.easing.apply_mono ?_
  rw [Exact.unitClamp_eq, Exact.unitClamp_eq]
  exact min_le_min_left _ (max_le_max_left _
    (div_le_div_of_nonneg_right (sub_le_sub_right hle _) hduration.le))

theorem apply_unitClamp_mem (easing : Easing) (t : K) :
    0 ≤ easing.apply (unitClamp t) ∧ easing.apply (unitClamp t) ≤ 1 := by
  rw [Exact.unitClamp_eq]
  constructor
  · exact easing.apply_zero.symm.trans_le
      (easing.apply_mono (le_min zero_le_one (le_max_left _ _)))
  · exact (easing.apply_mono (min_le_left _ _)).trans_eq easing.apply_one

/-- **An animation goes from its origin toward its target.** -/
theorem along_course (animation : Animation K) (hduration : 0 < animation.duration) (start : K)
    {times : List K} (hsorted : times.Pairwise (· ≤ ·)) :
    Along animation.origin animation.target (times.map (animation.course start)) := by
  have hmem (now : K) := apply_unitClamp_mem animation.easing ((now - start) / animation.duration)
  have hmono := animation.apply_unitClamp_mono hduration start
  unfold Along
  rw [List.pairwise_cons, List.pairwise_cons, List.pairwise_map, List.pairwise_map]
  simp only [List.forall_mem_map, course]
  rcases le_total animation.origin animation.target with hle | hle
  · have hway := sub_nonneg.mpr hle
    refine .inl ⟨hle, ⟨fun now _ => ?_, hsorted.imp fun h => ?_⟩, fun now _ => ?_⟩
    · exact le_add_of_nonneg_right (mul_nonneg hway (hmem now).1)
    · exact add_le_add_right (mul_le_mul_of_nonneg_left (hmono h) hway) _
    · linarith [mul_le_of_le_one_right hway (hmem now).2]
  · have hway := sub_nonpos.mpr hle
    refine .inr ⟨hle, ⟨fun now _ => ?_, hsorted.imp fun h => ?_⟩, fun now _ => ?_⟩
    · exact add_le_of_nonpos_right (mul_nonpos_of_nonpos_of_nonneg hway (hmem now).1)
    · exact add_le_add_right (mul_le_mul_of_nonpos_left (hmono h) hway) _
    · linarith [mul_le_mul_of_nonpos_left (hmem now).2 hway]

end Animation

/-- The place at a distance from an origin, toward a target. -/
def moved (origin target distance : K) : K :=
  if origin ≤ target then origin + distance else origin - distance

namespace Easing

/-- How long the way to a target takes: at constant speed the duration is that of a distance of
one. -/
def time (easing : Easing) (origin target duration : K) : K :=
  match easing with
  | .constantSpeed => duration * |target - origin|
  | _ => duration

/-- Where an animation has come at a time, before it is brought onto the grid: at constant speed as
far as the time is enough for, and otherwise by the part of the way that the easing says. -/
def course (easing : Easing) (origin target start duration now : K) : K :=
  match easing with
  | .constantSpeed =>
    moved origin target (min (max 0 (now - start) / duration) |target - origin|)
  | easing => origin + (target - origin) * easing.apply (unitClamp ((now - start) / duration))

/-- The animation that is started. -/
def animation (easing : Easing) (origin target start duration : K) : Animation K where
  target := target
  origin := origin
  startTime := some start
  duration := easing.time origin target duration
  easing := if easing = .constantSpeed then .linear else easing

variable [IsStrictOrderedRing K] {easing : Easing} {origin target start duration : K}

omit [FloorRing K] [ScalarFunctions K] in
theorem time_pos (hduration : 0 < duration)
    (hway : easing = .constantSpeed → target ≠ origin) :
    0 < easing.time origin target duration := by
  cases easing with
  | constantSpeed => exact mul_pos hduration (abs_pos.mpr (sub_ne_zero.mpr (hway rfl)))
  | linear | cubicInOut | none => exact hduration

/-- **The animation that is started has the course of the easing.** -/
theorem course_animation (hduration : 0 < duration)
    (hway : easing = .constantSpeed → target ≠ origin) (now : K) :
    (easing.animation origin target start duration).course start now =
      easing.course origin target start duration now := by
  cases easing with
  | linear | cubicInOut | none => rfl
  | constantSpeed =>
    have hlength : 0 < |target - origin| := abs_pos.mpr (sub_ne_zero.mpr (hway rfl))
    have hpart : |target - origin| * unitClamp ((now - start) / (duration * |target - origin|)) =
        min (max 0 (now - start) / duration) |target - origin| := by
      rw [Exact.unitClamp_eq, mul_min_of_nonneg _ _ hlength.le, mul_max_of_nonneg _ _ hlength.le,
        mul_one, mul_zero, min_comm, ← max_div_div_right hduration.le, zero_div]
      congr 2
      rw [← div_div, mul_div_cancel₀ _ hlength.ne']
    show origin + (target - origin) *
      unitClamp ((now - start) / (duration * |target - origin|)) = moved origin target _
    rw [← hpart]
    unfold moved
    split_ifs with hle
    · rw [abs_of_nonneg (sub_nonneg.mpr hle)]
    · rw [abs_of_neg (sub_neg.mpr (not_le.mp hle))]
      ring

/-- With no way to go the place is the target. -/
theorem course_self (now : K) (hduration : 0 < duration) :
    Easing.constantSpeed.course origin origin start duration now = origin := by
  show moved origin origin (min _ |origin - origin|) = origin
  rw [sub_self, abs_zero, min_eq_right (div_nonneg (le_max_left _ _) hduration.le)]
  exact (if_pos le_rfl).trans (add_zero origin)

end Easing

namespace Scheduler

variable {ε σ : Type}

/-! ## Ticks -/

/-- A scheduler with another value and activity. -/
def put (s : Scheduler K) (value : K) (activity : Activity K) : Scheduler K :=
  { s with value, activity }

/-- Ticks at some times, with what each of them answers and the value behind it. -/
def tickAll (listener : Listener ε σ K) : List K → Playing ε σ K (List (Bool × K))
  | [] => return []
  | now :: rest => do
    let goesOn ← tick listener (.ok now)
    let value ← ask (·.value)
    return (goesOn, value) :: (← tickAll listener rest)

theorem run_tickAll_cons {listener : Listener ε σ K} {now : K} {rest : List K} {goesOn : Bool}
    {s t u : Scheduler K} {notes notes' notes'' : σ} {answers : List (Bool × K)}
    (htick : (tick listener (.ok now)) (s, notes) = (.ok goesOn, (t, notes')))
    (hrest : (tickAll listener rest) (t, notes') = (.ok answers, (u, notes''))) :
    (tickAll listener (now :: rest)) (s, notes) =
      (.ok ((goesOn, t.value) :: answers), (u, notes'')) :=
  (run_bind_ok htick).trans ((run_bind_ok (run_ask _ t notes')).trans (run_bind_ok hrest))

/-- A scheduler at rest answers no and stays. -/
theorem run_tickAll_idle (listener : Listener ε σ K) {s : Scheduler K}
    (h : s.activity = .idle) (times : List K) (notes : σ) :
    (tickAll listener times) (s, notes) =
      (.ok (times.map fun _ => (false, s.value)), (s, notes)) := by
  induction times with
  | nil => rfl
  | cons now rest ih => exact run_tickAll_cons (run_tick_idle h _) ih

/-- The name of an easing stands for it. -/
theorem run_animateTo {α : Type} [Written α] (listener : Listener ε σ α)
    (target duration : Reading α) (easing : Easing) (now : Option (Reading α)) (s : Scheduler α)
    (notes : σ) :
    (animateTo listener target duration (.text easing.name) now) (s, notes) =
      (animateWith listener target duration easing now) (withActivity .idle s, notes) := by
  cases easing <;> rfl

variable [IsStrictOrderedRing K] {s : Scheduler K} {animation : Animation K} {start : K}
  {listener : Listener ε σ K}

/-- **A tick shows the point for its time**, and goes on before the end. -/
theorem run_tick_accepted (hstart : animation.startTime = some start)
    (hduration : 0 < animation.duration) (now v : K) {notes notes' : σ}
    (hlistener : (listener (s.point (animation.course start now))) notes = (.ok (), notes')) :
    (tick listener (.ok now)) (s.put v (.animating animation), notes) =
      (.ok (decide (now < start + animation.duration)),
        (s.put (s.point (animation.course start now))
          (if now < start + animation.duration then .animating animation else .idle), notes')) := by
  rw [run_tick rfl, Animation.shown_eq hstart hduration, Animation.after_eq hstart hduration]
  have hpresent := presentOrRest_eq_ok.mpr (present_eq_ok.mpr ⟨_,
    quantize_eq (s.put v (if now < start + animation.duration then .animating animation else .idle))
      (animation.course start now), hlistener, rfl⟩)
  refine (run_bind_ok hpresent).trans ((run_ask _ _ _).trans ?_)
  by_cases h : now < start + animation.duration
  · simp only [if_pos h, decide_eq_true h]
    rfl
  · simp only [if_neg h, decide_eq_false h]
    rfl

/-- **A tick tells the listener the point for its time.** -/
theorem run_tick_animating (haccepts : Accepts listener) (hstart : animation.startTime = some start)
    (hduration : 0 < animation.duration) (now v : K) (notes : σ) (log : List K) :
    ∃ notes', (tick listener.logged (.ok now)) (s.put v (.animating animation), (notes, log)) =
      (.ok (decide (now < start + animation.duration)),
        (s.put (s.point (animation.course start now))
          (if now < start + animation.duration then .animating animation else .idle),
        (notes', log ++ [s.point (animation.course start now)]))) := by
  obtain ⟨notes', hlistener⟩ := haccepts (s.point (animation.course start now)) notes
  exact ⟨notes', run_tick_accepted hstart hduration now v (Listener.run_logged_ok hlistener log)⟩

/-- **Ticks follow the course**, one after another, and what the listener is told are points for
their times. -/
theorem run_tickAll_animating (haccepts : Accepts listener)
    (hstart : animation.startTime = some start) (hduration : 0 < animation.duration)
    {times : List K} (hsorted : times.Pairwise (· ≤ ·)) (v : K) (notes : σ) (log : List K) :
    ∃ t notes' told,
      (tickAll listener.logged times) (s.put v (.animating animation), (notes, log)) =
        (.ok (times.map fun now => (decide (now < start + animation.duration),
          s.point (animation.course start now))), (t, (notes', log ++ told))) ∧
      told.Sublist (times.map fun now => s.point (animation.course start now)) := by
  induction times generalizing v notes log with
  | nil => exact ⟨_, _, [], congrArg _ (congrArg _ (congrArg _ (List.append_nil log).symm)), .slnil⟩
  | cons now rest ih =>
    obtain ⟨hlater, hsorted⟩ := List.pairwise_cons.mp hsorted
    obtain ⟨notes', htick⟩ :=
      run_tick_animating (s := s) haccepts hstart hduration now v notes log
    by_cases hend : now < start + animation.duration
    · rw [if_pos hend] at htick
      obtain ⟨t, notes'', told, hrest, htold⟩ := ih hsorted (s.point (animation.course start now))
        notes' (log ++ [s.point (animation.course start now)])
      refine ⟨t, notes'', s.point (animation.course start now) :: told, ?_, htold.cons_cons _⟩
      rw [run_tickAll_cons htick hrest, List.append_assoc]
      rfl
    · -- the animation is over, so the later ticks find the scheduler at rest
      rw [if_neg hend] at htick
      have hrest := run_tickAll_idle listener.logged
        (s := s.put (s.point (animation.course start now)) .idle) rfl rest
        (notes', log ++ [s.point (animation.course start now)])
      have hanswers : (rest.map fun _ => (false, s.point (animation.course start now))) =
          rest.map fun now => (decide (now < start + animation.duration),
            s.point (animation.course start now)) := by
        refine List.map_congr_left fun later hmem => ?_
        have hlater : ¬ later < start + animation.duration := fun h =>
          hend ((hlater later hmem).trans_lt h)
        rw [decide_eq_false hlater, Animation.course_of_le hduration (not_lt.mp hlater),
          Animation.course_of_le hduration (not_lt.mp hend)]
      refine ⟨s.put (s.point (animation.course start now)) .idle, notes',
        [s.point (animation.course start now)], ?_, (List.nil_sublist _).cons_cons _⟩
      rw [run_tickAll_cons htick hrest, List.map_cons, ← hanswers]
      rfl

/-! ## Starting an animation -/

/-- An animation whose way takes time starts where the scheduler stands. -/
theorem run_animateTo_timed [ScalarTexts K] (listener : Listener ε σ K) {easing : Easing}
    (heasing : easing ≠ .none) {duration target : K} (hduration : 0 < duration)
    (hway : easing = .constantSpeed → s.clamp target ≠ s.value) (start : K) (notes : σ) :
    (animateTo listener (.ok target) (.ok duration) (.text easing.name) (some (.ok start)))
        (s, notes) = (.ok (), (s.put s.value
        (.animating (easing.animation s.value (s.clamp target) start duration)), notes)) := by
  have htimed : ¬ (!isFinite duration || duration ≤ zero || easing = .none) = true := by
    have hfinite : isFinite duration = true := rfl
    simp [hfinite, hduration, heasing]
  have hmoves : ¬ (easing = .constantSpeed && (if easing = .constantSpeed then
      duration * Scalar.abs (s.clamp target - s.value) else duration) ≤ zero) = true := by
    rw [Bool.and_eq_true, decide_eq_true_iff, decide_eq_true_iff]
    rintro ⟨rfl, hle⟩
    have hpos := Easing.time_pos hduration hway
    rw [if_pos rfl, Exact.abs_eq, Exact.zero_eq] at hle
    exact absurd hle (not_le.mpr hpos)
  refine (run_animateTo _ _ _ _ _ _ _).trans
    ((congrFun (if_neg htimed) (withActivity .idle s, notes)).trans
      ((congrFun (if_neg hmoves) (withActivity .idle s, notes)).trans ?_))
  cases easing with
  | linear => rfl
  | cubicInOut => rfl
  | constantSpeed =>
    show (Except.ok (), (withActivity _ (withActivity .idle s), notes)) = _
    rw [if_pos rfl, Exact.abs_eq]
    rfl
  | none => exact absurd rfl heasing

/-- At constant speed there is nothing to start where there is no way to go: the scheduler shows the
place where it stands, and is at rest. -/
theorem run_animateTo_still [ScalarTexts K] (haccepts : Accepts listener) (hregular : s.Regular)
    (hgrid : s.point s.value = s.value) {duration target : K} (hduration : 0 < duration)
    (hstill : s.clamp target = s.value) (start : K) (notes : σ) (log : List K) :
    ∃ notes', (animateTo listener.logged (.ok target) (.ok duration)
        (.text Easing.constantSpeed.name) (some (.ok start))) (s, (notes, log)) =
      (.ok (), (s.put s.value .idle, (notes', log ++ [s.value]))) := by
  have htimed : ¬ (!isFinite duration || duration ≤ zero || Easing.constantSpeed = .none) =
      true := by
    have hfinite : isFinite duration = true := rfl
    simp [hfinite, hduration]
  have hstays : (Easing.constantSpeed = .constantSpeed && (if Easing.constantSpeed =
      .constantSpeed then duration * Scalar.abs (s.clamp target - s.value) else duration) ≤
        zero) = true := by
    rw [if_pos rfl, hstill, Exact.abs_eq, sub_self, abs_zero, mul_zero, Exact.zero_eq]
    simp
  obtain ⟨notes', hlistener⟩ := haccepts s.value notes
  have hquantize : (withActivity .idle s).quantize (s.clamp (s.clamp target)) = .ok s.value := by
    rw [hregular.clamp_clamp, hstill]
    exact (quantize_eq _ _).trans (congrArg Except.ok hgrid)
  exact ⟨notes', (run_animateTo _ _ _ _ _ _ _).trans
    ((congrFun (if_neg htimed) (withActivity .idle s, _)).trans
      ((congrFun (if_pos hstays) (withActivity .idle s, _)).trans (present_eq_ok.mpr
        ⟨_, hquantize, Listener.run_logged_ok hlistener log, rfl⟩)))⟩

/-! ## States on the grid -/

/-- A scheduler that is set up has a range that is not empty, and its steps lead forward. -/
theorem IsSetUp.regular {setup : Setup K} {s : Scheduler K} (h : IsSetUp setup s) : s.Regular where
  range := by
    have hminimum := Except.ok.inj ((Exact.toScalar?_eq _).symm.trans h.minimum)
    have hmaximum := Except.ok.inj ((Exact.toScalar?_eq _).symm.trans h.maximum)
    have hrange := h.range
    rw [← hminimum, ← hmaximum, ← Exact.le_iff]
    cases hle : setup.minimum.le setup.maximum with
    | true => rfl
    | false =>
      have hge : setup.maximum.le setup.minimum = false := by simpa [hle] using hrange
      exact absurd (Exact.lt_of_le_eq_false hle) (lt_asymm (Exact.lt_of_le_eq_false hge))
  step {step} hstep := by
    obtain ⟨n, hn, hread⟩ := h.step hstep
    have hread := Except.ok.inj ((Exact.toScalar?_eq n).symm.trans hread)
    have hisStep := h.isStep hn
    unfold isStepSize at hisStep
    obtain ⟨finite, -, hisStep⟩ := bind_eq_ok.mp hisStep
    have hpos : n.le (.int 0) = false := by
      cases hle : n.le (.int 0) with
      | false => rfl
      | true =>
        rw [hle, Bool.not_true, Bool.and_false] at hisStep
        cases hisStep
    rw [← hread]
    exact Exact.toScalar_pos hpos

/-- **A scheduler keeps its settings and stands on its grid**, whatever was asked of it. -/
theorem settings_of_runAll [ScalarTexts K] {setup : Setup K} {s₀ s : Scheduler K}
    (hsetup : ofSetup setup = .ok s₀) {operations : List (Operation K)} {notes notes' : σ}
    (h : runAll listener operations (s₀, notes) = (s, notes')) :
    s = { s₀ with value := s.value, activity := s.activity } ∧ s₀.point s.value = s.value := by
  have hset := isSetUp_of_ofSetup hsetup
  have hpoint {v w : K} (hw : s₀.quantize v = .ok w) : s₀.point w = w := by
    rw [quantize_eq] at hw
    cases hw
    exact hset.regular.point_point v
  have hstart : s₀.point s₀.value = s₀.value := hset.regular.point_of_end (.inl hset.value)
  obtain ⟨s', _, _, hrun, -, -, hsettings, hvalue⟩ :=
    runAll_alike (follows_value hpoint listener) operations (n := notes) ⟨rfl, rfl, hstart⟩
  rw [h] at hrun
  cases hrun
  exact ⟨hsettings, hvalue⟩

/-- So its range and its steps are regular, and it stands on its own grid. -/
theorem onGrid_of_runAll [ScalarTexts K] {setup : Setup K} {s₀ s : Scheduler K}
    (hsetup : ofSetup setup = .ok s₀) {operations : List (Operation K)} {notes notes' : σ}
    (h : runAll listener operations (s₀, notes) = (s, notes')) :
    s.Regular ∧ s.point s.value = s.value := by
  have hregular := (isSetUp_of_ofSetup hsetup).regular
  obtain ⟨hsettings, hvalue⟩ := settings_of_runAll hsetup h
  rw [hsettings]
  exact ⟨⟨hregular.range, hregular.step⟩, hvalue⟩

/-! ## The trajectory -/

/-- What a tick at a time answers in an animation that started at a scheduler, and the value behind
it. -/
structure AtTick (s : Scheduler K) (easing : Easing) (target start duration now : K)
    (answer : Bool × K) : Prop where
  /-- The value is the course of the easing, brought onto the grid. -/
  value : s.quantize (easing.course s.value (s.clamp target) start duration now) = .ok answer.2
  /-- The tick answers no from the end of the time on. -/
  stops : (easing = .constantSpeed → s.clamp target ≠ s.value) →
    (answer.1 = false ↔ start + easing.time s.value (s.clamp target) duration ≤ now)
  /-- From then on the value is the target, brought onto the grid. -/
  rests : start + easing.time s.value (s.clamp target) duration ≤ now →
    s.quantize (s.clamp target) = .ok answer.2

/-- The point of the course is what a tick shows, and it goes on before the end of the time. -/
theorem atTick_course {easing : Easing} {target duration : K} (hduration : 0 < duration)
    (hway : easing = .constantSpeed → s.clamp target ≠ s.value) (start now : K) :
    AtTick s easing target start duration now
      (decide (now < start + easing.time s.value (s.clamp target) duration),
        s.point ((easing.animation s.value (s.clamp target) start duration).course start now)) where
  value := by rw [quantize_eq, Easing.course_animation hduration hway]
  stops _ := decide_eq_false_iff_not.trans not_lt
  rests hend := by
    rw [quantize_eq, Animation.course_of_le (Easing.time_pos hduration hway) hend]
    rfl

/-- With no way to go at constant speed the value is the target already. -/
theorem atTick_still (hgrid : s.point s.value = s.value) {target duration : K}
    (hduration : 0 < duration) (hstill : s.clamp target = s.value) (start now : K) :
    AtTick s .constantSpeed target start duration now (false, s.value) where
  value := by rw [quantize_eq, hstill, Easing.course_self now hduration, hgrid]
  stops hmoves := absurd hstill (hmoves rfl)
  rests _ := by rw [quantize_eq, hstill, hgrid]

/-- **An animation follows its course**, whatever the schedule of ticks, and what the listener is
told goes along the way to the target and not beyond it. This holds from every state that a
scheduler gets into. -/
theorem animateTo_course [ScalarTexts K] {setup : Setup K} {s₀ s : Scheduler K}
    (hsetup : ofSetup setup = .ok s₀) {ε' σ' : Type} {earlier : Listener ε' σ' K}
    {operations : List (Operation K)} {before after : σ'}
    (hreached : runAll earlier operations (s₀, before) = (s, after)) (haccepts : Accepts listener)
    {easing : Easing} (heasing : easing ≠ .none) {duration : K} (hduration : 0 < duration)
    (target start : K) {times : List K} (hsorted : times.Pairwise (· ≤ ·)) (notes : σ) :
    ∃ t notes' answers told goal,
      (do
        animateTo listener.logged (.ok target) (.ok duration) (.text easing.name) (some (.ok start))
        tickAll listener.logged times : Playing ε (σ × List K) K (List (Bool × K)))
          (s, (notes, [])) = (.ok answers, (t, (notes', told))) ∧
      List.Forall₂ (AtTick s easing target start duration) times answers ∧
      s.quantize (s.clamp target) = .ok goal ∧ Along s.value goal told := by
  obtain ⟨hregular, hgrid⟩ := onGrid_of_runAll hsetup hreached
  by_cases hway : easing = .constantSpeed → s.clamp target ≠ s.value
  · have htime := Easing.time_pos hduration hway
    have hstart : (easing.animation s.value (s.clamp target) start duration).startTime =
      some start := rfl
    obtain ⟨t, notes', told, hticks, htold⟩ :=
      run_tickAll_animating (s := s) haccepts hstart htime hsorted s.value notes []
    have hanimate := run_animateTo_timed listener.logged heasing hduration hway start
      (notes, [])
    refine ⟨t, notes', _, told, _, (run_bind_ok hanimate).trans hticks, ?_, quantize_eq s _, ?_⟩
    · exact List.forall₂_map_right_iff.mpr
        (List.forall₂_same.mpr fun now _ => atTick_course hduration hway start now)
    · have halong := (Animation.along_course (easing.animation s.value (s.clamp target) start
        duration) htime start hsorted).map hregular.point_mono
      rw [List.map_map] at halong
      have horigin : s.point (easing.animation s.value (s.clamp target) start duration).origin =
        s.value := hgrid
      rw [horigin] at halong
      exact halong.sublist htold
  · -- at constant speed where the target is: nothing is started, and the ticks find it at rest
    obtain ⟨rfl, hstill⟩ : easing = .constantSpeed ∧ s.clamp target = s.value := by
      simpa only [Classical.not_imp, not_not] using hway
    obtain ⟨notes', hanimate⟩ :=
      run_animateTo_still haccepts hregular hgrid hduration hstill start notes []
    have hticks := run_tickAll_idle listener.logged (s := s.put s.value .idle) rfl
      times (notes', [s.value])
    refine ⟨_, notes', _, _, _, (run_bind_ok hanimate).trans hticks, ?_, quantize_eq s _, ?_⟩
    · exact List.forall₂_map_right_iff.mpr
        (List.forall₂_same.mpr fun now _ => atTick_still hgrid hduration hstill start now)
    · rw [hstill, hgrid]
      exact .inl ⟨le_rfl, by simp, by simp⟩

/-- A range of three on a grid of three tenths. -/
def tenthsSetup : Setup Rat :=
  { Setup.default with maximum := .int 3, stepSize := some (.real (3 / 10)) }

/-- A listener that accepts every rational. -/
def acceptRational : Listener Unit Unit Rat := fun _ => pure ()

/-- The cubic way from six tenths to two, with a tick before its time and two behind it. -/
theorem animateTo_course_tenths :
    ∃ s₀ s : Scheduler Rat, ofSetup tenthsSetup = .ok s₀ ∧
      runAll acceptRational [.setValue (.ok (2 / 3)), .stepForward none] (s₀, ()) = (s, ()) ∧
      s.value = 3 / 5 ∧
      ∃ t notes' answers told goal,
        (do
          animateTo acceptRational.logged (.ok 2) (.ok 1000) (.text Easing.cubicInOut.name)
            (some (.ok 0))
          tickAll acceptRational.logged [-20, 100, 600, 1000, 1016] :
            Playing Unit (Unit × List Rat) Rat (List (Bool × Rat)))
          (s, ((), [])) = (.ok answers, (t, (notes', told))) ∧
        List.Forall₂ (AtTick s .cubicInOut 2 0 1000) [-20, 100, 600, 1000, 1016] answers ∧
        s.quantize (s.clamp 2) = .ok goal ∧ Along s.value goal told := by
  have hcheck : ((ofSetup tenthsSetup).map fun s₀ => decide ((runAll acceptRational
      [.setValue (.ok (2 / 3)), .stepForward none] (s₀, ())).1.value = 3 / 5)).toOption =
      some true := by decide +kernel
  obtain ⟨s₀, hsetup, hvalue⟩ := map_eq_ok.mp (toOption_eq_some.mp hcheck)
  rcases hreached : runAll acceptRational [.setValue (.ok (2 / 3)), .stepForward none]
    (s₀, ()) with ⟨s, notes⟩
  rw [hreached] at hvalue
  have hduration : (0 : Rat) < 1000 := by norm_num
  have hsorted : [-20, 100, 600, 1000, (1016 : Rat)].Pairwise (· ≤ ·) := by decide +kernel
  exact ⟨s₀, s, hsetup, hreached, of_decide_eq_true hvalue, animateTo_course hsetup hreached
    (fun _ _ => ⟨(), rfl⟩) (by decide) hduration 2 0 hsorted ()⟩

end Scheduler

end CanvasScript
