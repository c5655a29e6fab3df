import CanvasScript.Proofs.Playback.Clock
import Mathlib.Data.Rat.Floor

/-!
# The cadence of presented frames

A clock is asked again and again whether a frame is presented (`should_present`). Without rounding
errors the answers follow from the times alone: the periods of presentation lie on a grid that
starts with the first time, and a frame is presented when it is the first one asked about in its
period. So a late frame loses the periods that it missed, and nothing more: none of them is made up
for, and the grid stays where it is.

* `FrameClock.CatchesUp period now due next`: a due time that is moved on by a period while it is
  not after `now` comes to rest, at `next`.
* `FrameClock.dueAfter period origin now`: the first time after `now` on the grid of a period that
  starts at `origin`.
* `FrameClock.present_eq`: **an answer leaves the due time at the first one after it**, also where
  the frame is not presented.
* `FrameClock.after_succ`: so it does answer after answer, at whatever times.
* `FrameClock.countP_isPresented`: how many of the first frames of a clock are presented.
* `FrameClock.present_cadence`: **which frames are presented**, that every answer comes to an end,
  and where it leaves the due time.

Out of scope: the rounding of doubles, by which due times leave their grid in the course of time.
-/

namespace CanvasScript

open Scalar
open scoped Exact

namespace FrameClock

variable {K : Type} [Field K] [LinearOrder K] [FloorRing K]

/-! ## Due times on a grid -/

/-- The course of a due time that is moved on by a period while it is not after `now`, up to where
it comes to rest. -/
inductive CatchesUp (period now : K) : K → K → Prop where
  | rest {due : K} : now < due → CatchesUp period now due due
  | move {due next : K} : due ≤ now → CatchesUp period now (due + period) next →
    CatchesUp period now due next

/-- The first time after `now` on the grid of a period that starts at `origin`. -/
def dueAfter (period origin now : K) : K := origin + (⌊(now - origin) / period⌋ + 1) * period

section

variable [IsStrictOrderedRing K] {period origin due now next : K}

/-- A time on the grid is the first one after `now` if it lies in the period behind it. -/
theorem eq_dueAfter (hperiod : 0 < period) (k : Int) (hgrid : next = origin + k * period)
    (hafter : now < next) (hwithin : next ≤ now + period) : next = dueAfter period origin now := by
  have hfloor : ⌊(now - origin) / period⌋ = k - 1 := by
    rw [Int.floor_eq_iff, le_div_iff₀ hperiod, div_lt_iff₀ hperiod]
    push_cast
    constructor <;> linarith
  rw [dueAfter, hfloor, hgrid]
  push_cast
  ring

/-- The first time after `now` lies in the period behind it. -/
theorem dueAfter_mem (hperiod : 0 < period) (origin now : K) :
    now < dueAfter period origin now ∧ dueAfter period origin now ≤ now + period := by
  have hbelow := mul_le_mul_of_nonneg_right (Int.floor_le ((now - origin) / period)) hperiod.le
  have habove := mul_lt_mul_of_pos_right (Int.lt_floor_add_one ((now - origin) / period)) hperiod
  rw [div_mul_cancel₀ _ hperiod.ne'] at hbelow habove
  unfold dueAfter
  constructor <;> linarith

/-- What is due after a time is due by a later one when that lies in another period. -/
theorem dueAfter_le_iff (hperiod : 0 < period) (origin t now : K) :
    dueAfter period origin t ≤ now ↔ ⌊(t - origin) / period⌋ < ⌊(now - origin) / period⌋ := by
  rw [← Int.add_one_le_iff, Int.le_floor, le_div_iff₀ hperiod, dueAfter, le_sub_iff_add_le']
  push_cast
  rfl

/-- Whole periods lie between the start of the grid and what is due after it. -/
theorem exists_dueAfter_eq (hperiod : 0 < period) (h : origin ≤ now) :
    ∃ k : Nat, dueAfter period origin now = origin + k * period := by
  have hfloor : 0 ≤ ⌊(now - origin) / period⌋ :=
    Int.floor_nonneg.mpr (div_nonneg (sub_nonneg.mpr h) hperiod.le)
  obtain ⟨k, hk⟩ := Int.eq_ofNat_of_zero_le hfloor
  refine ⟨k + 1, ?_⟩
  rw [dueAfter, hk]
  push_cast
  rfl

/-- **A due time that is not after `now` catches up with it.** -/
theorem FirstAfter.catchesUp (hperiod : 0 < period) (h : FirstAfter period due now next)
    (hdue : due ≤ now) : CatchesUp period now due next := by
  obtain ⟨⟨steps, hgrid⟩, hafter, hfirst⟩ := h
  have hnext := hfirst hdue
  clear hfirst
  induction steps generalizing due with
  | zero =>
    rw [Nat.cast_zero, zero_mul, add_zero] at hgrid
    exact absurd hafter (not_lt.mpr (hgrid.trans_le hdue))
  | succ steps ih =>
    have hmoved : next = due + period + steps * period := by
      rw [hgrid]
      push_cast
      ring
    refine .move hdue ?_
    by_cases hbehind : due + period ≤ now
    · exact ih hbehind hmoved
    · -- the end is at most one period after `now`, so the due time has come there
      have hsteps : steps = 0 := by
        by_contra hne
        have hone : (1 : K) ≤ steps := by exact_mod_cast Nat.one_le_iff_ne_zero.mpr hne
        linarith [mul_le_mul_of_nonneg_right hone hperiod.le, not_le.mp hbehind]
      rw [hsteps, Nat.cast_zero, zero_mul, add_zero] at hmoved
      rw [hmoved]
      exact .rest (not_le.mp hbehind)

end

/-! ## One answer -/

/-- What an answer at `now` does to a due time: it catches up where the frame is presented, and
stays as it is otherwise. -/
def Moves (period now : K) (isPresented : Bool) (due next : K) : Prop :=
  if isPresented then CatchesUp period now due next else next = due

variable [ScalarFunctions K]

/-- The clock with what is due after an answer at `now`, on the grid that starts at `origin`. -/
def answeredAt (clock : FrameClock K) (origin now : K) : FrameClock K :=
  { clock with nextDue := some (dueAfter clock.presentTime origin now) }

section

variable [IsStrictOrderedRing K] {clock : FrameClock K}

/-- **The first frame is presented**, and the grid starts with it. -/
theorem present_first (h : clock.Regular) (hfirst : clock.nextDue = none) (now : K) :
    clock.present now = (true, clock.answeredAt now now) ∧
      Moves clock.presentTime now true now (dueAfter clock.presentTime now now) := by
  obtain ⟨next, hpresent, hnext⟩ := exists_present h now
  rw [hfirst, Option.getD_none] at hpresent hnext
  obtain ⟨steps, hgrid⟩ := hnext.grid
  have hdue : next = dueAfter clock.presentTime now now :=
    eq_dueAfter h.presentTime_pos steps (by exact_mod_cast hgrid) hnext.after (hnext.first le_rfl)
  rw [decide_eq_true le_rfl, hdue] at hpresent
  exact ⟨hpresent, hdue ▸ hnext.catchesUp h.presentTime_pos le_rfl⟩

/-- **An answer leaves the due time at the first one after it.** A frame is presented when what was
due after the last answer is due by now. -/
theorem present_answeredAt (h : clock.Regular) (origin : K) {t now : K} (htime : t ≤ now) :
    (clock.answeredAt origin t).present now =
        (decide (dueAfter clock.presentTime origin t ≤ now), clock.answeredAt origin now) ∧
      Moves clock.presentTime now (decide (dueAfter clock.presentTime origin t ≤ now))
        (dueAfter clock.presentTime origin t) (dueAfter clock.presentTime origin now) := by
  have hperiod := h.presentTime_pos
  have hgrid : dueAfter clock.presentTime origin t =
      origin + (⌊(t - origin) / clock.presentTime⌋ + 1 : Int) * clock.presentTime := by
    push_cast
    rfl
  by_cases hreached : dueAfter clock.presentTime origin t ≤ now
  · have hregular : (clock.answeredAt origin t).Regular := ⟨h.targetRate, h.presentRate⟩
    obtain ⟨next, hpresent, hnext⟩ := exists_present hregular now
    have hcatch : FirstAfter clock.presentTime (dueAfter clock.presentTime origin t) now next :=
      hnext
    obtain ⟨steps, hsteps⟩ := hcatch.grid
    have hend : next = dueAfter clock.presentTime origin now := by
      refine eq_dueAfter hperiod (⌊(t - origin) / clock.presentTime⌋ + 1 + steps) ?_ hcatch.after
        (hcatch.first hreached)
      rw [hsteps, hgrid]
      push_cast
      ring
    rw [hend] at hpresent hcatch
    refine ⟨hpresent, ?_⟩
    rw [decide_eq_true hreached]
    exact hcatch.catchesUp hperiod hreached
  · have hstays : dueAfter clock.presentTime origin t = dueAfter clock.presentTime origin now :=
      eq_dueAfter hperiod _ hgrid (not_le.mp hreached)
        ((dueAfter_mem hperiod origin t).2.trans (add_le_add_left htime _))
    rw [decide_eq_false hreached]
    refine ⟨?_, hstays.symm⟩
    unfold answeredAt present
    rw [Option.getD_some, if_pos (not_le.mp hreached), hstays]

end

/-! ## Answers in turn -/

/-- The clock after the first answers at some times. -/
def after (clock : FrameClock K) (times : Nat → K) : Nat → FrameClock K
  | 0 => clock
  | n + 1 => ((clock.after times n).present (times n)).2

/-- Whether the frame at one of some times is presented, where the clock is asked at all of them in
turn. -/
def isPresented (clock : FrameClock K) (times : Nat → K) (n : Nat) : Bool :=
  ((clock.after times n).present (times n)).1

variable [IsStrictOrderedRing K] {clock : FrameClock K} {times : Nat → K}

/-- **Answer after answer leaves the due time at the first one after it**, on the grid that starts
with the first time. -/
theorem after_succ (h : clock.Regular) (hfirst : clock.nextDue = none) (htimes : Monotone times)
    (n : Nat) : clock.after times (n + 1) = clock.answeredAt (times 0) (times n) := by
  induction n with
  | zero => exact congrArg Prod.snd (present_first h hfirst (times 0)).1
  | succ n ih =>
    rw [after, ih]
    exact congrArg Prod.snd (present_answeredAt h (times 0) (htimes n.le_succ)).1

theorem isPresented_zero (h : clock.Regular) (hfirst : clock.nextDue = none) :
    clock.isPresented times 0 = true :=
  congrArg Prod.fst (present_first h hfirst (times 0)).1

theorem isPresented_succ (h : clock.Regular) (hfirst : clock.nextDue = none)
    (htimes : Monotone times) (n : Nat) : clock.isPresented times (n + 1) =
      decide (dueAfter clock.presentTime (times 0) (times n) ≤ times (n + 1)) := by
  rw [isPresented, after_succ h hfirst htimes]
  exact congrArg Prod.fst (present_answeredAt h (times 0) (htimes n.le_succ)).1

/-- Every answer comes to an end, and leaves the due time at the first one after it. -/
theorem moves (h : clock.Regular) (hfirst : clock.nextDue = none) (htimes : Monotone times)
    (n : Nat) : Moves clock.presentTime (times n) (clock.isPresented times n)
      ((clock.after times n).nextDue.getD (times n))
      (dueAfter clock.presentTime (times 0) (times n)) := by
  cases n with
  | zero =>
    rw [isPresented_zero h hfirst, after, hfirst, Option.getD_none]
    exact (present_first h hfirst (times 0)).2
  | succ n =>
    rw [isPresented_succ h hfirst htimes, after_succ h hfirst htimes]
    exact (present_answeredAt h (times 0) (htimes n.le_succ)).2

/-! ## The frames of a clock -/

omit [IsStrictOrderedRing K] in
/-- A clock that is made has not presented yet, and presents at the rate asked for, but at most at
that of its frames. -/
theorem presentTime_of_ofRates {target : Number K} {presented : Option (Number K)}
    (h : ofRates target presented = .ok clock) : clock.nextDue = none ∧
      clock.presentTime = 1000 / min (presented.getD target).toScalar target.toScalar := by
  have hperiod (rate : Number K) : period rate = 1000 / rate.toScalar := by
    show ((1000 : Int) : K) / rate.toScalar = _
    norm_num
  unfold ofRates at h
  split at h
  · cases h
  · split at h
    · cases h
      exact ⟨rfl, (hperiod target).trans (by simp)⟩
    · rename_i rate
      split at h
      · cases h
      · split at h
        · rename_i hfaster
          cases h
          exact ⟨rfl, (hperiod target).trans (by rw [Option.getD_some, min_eq_right hfaster.le])⟩
        · rename_i hslower
          cases h
          exact ⟨rfl, (hperiod rate).trans
            (by rw [Option.getD_some, min_eq_left (not_lt.mp hslower)])⟩

theorem monotone_timeOf (h : clock.Regular) (start : K) : Monotone (clock.timeOf start) := by
  intro m n hmn
  have hframe : (0 : K) ≤ 1000 / clock.targetRate.toScalar :=
    div_nonneg (by norm_num) h.targetRate.le
  rw [timeOf_eq, timeOf_eq]
  exact add_le_add_right (mul_le_mul_of_nonneg_right (Nat.cast_le.mpr hmn) hframe) start

/-- **How many of the first frames of a clock are presented**, where a share of them is due. -/
theorem countP_isPresented (h : clock.Regular) (hfirst : clock.nextDue = none) (start : K)
    {ratio : K} (hratio : 1000 / clock.targetRate.toScalar / clock.presentTime = ratio)
    (hone : ratio ≤ 1) (n : Nat) :
    (((List.range (n + 1)).countP (clock.isPresented (clock.timeOf start)) : Nat) : Int) =
      ⌊(n : K) * ratio⌋ + 1 := by
  have htimes := monotone_timeOf h start
  have hperiods (n : Nat) :
      (clock.timeOf start n - clock.timeOf start 0) / clock.presentTime = n * ratio := by
    rw [timeOf_zero, timeOf_eq, add_sub_cancel_left, mul_div_assoc, hratio]
  have hpos : 0 ≤ ratio := by
    rw [← hratio]
    exact div_nonneg (div_nonneg (by norm_num) h.targetRate.le) h.presentTime_pos.le
  induction n with
  | zero => simp [isPresented_zero h hfirst]
  | succ n ih =>
    have hlast : clock.isPresented (clock.timeOf start) (n + 1) =
        decide (⌊(n : K) * ratio⌋ < ⌊((n + 1 : Nat) : K) * ratio⌋) := by
      rw [isPresented_succ h hfirst htimes]
      refine decide_eq_decide.mpr ?_
      rw [dueAfter_le_iff h.presentTime_pos, hperiods, hperiods]
    -- a step of at most one passes at most one integer
    have hstep : ⌊((n + 1 : Nat) : K) * ratio⌋ ≤ ⌊(n : K) * ratio⌋ + 1 := by
      rw [← Int.floor_add_one]
      refine Int.floor_le_floor ?_
      push_cast
      linarith
    have hgrows : ⌊(n : K) * ratio⌋ ≤ ⌊((n + 1 : Nat) : K) * ratio⌋ :=
      Int.floor_le_floor (mul_le_mul_of_nonneg_right (Nat.cast_le.mpr n.le_succ) hpos)
    rw [List.range_succ, List.countP_append, List.countP_singleton, hlast]
    by_cases hnext : ⌊(n : K) * ratio⌋ < ⌊((n + 1 : Nat) : K) * ratio⌋
    · rw [decide_eq_true hnext, if_pos rfl]
      omega
    · rw [decide_eq_false hnext, if_neg Bool.false_ne_true]
      omega

/-- **Which frames are presented.** A clock that is made presents the first frame that it is asked
about, and after that every frame that lies in a later period than the one before, however late it
is; the periods start with the first frame. Every answer comes to an end, and what is due after it
lies on the grid of these periods, in the one behind its time. Of its own frames a clock presents
the share of the two rates. -/
theorem present_cadence {target : Number K} {presented : Option (Number K)}
    (h : ofRates target presented = .ok clock) :
    let rate := min (presented.getD target).toScalar target.toScalar
    let period := 1000 / rate
    clock.presentTime = period ∧
      (∀ times : Nat → K, Monotone times →
        clock.isPresented times 0 = true ∧
        (∀ n, clock.isPresented times (n + 1) = true ↔
          ⌊(times n - times 0) / period⌋ < ⌊(times (n + 1) - times 0) / period⌋) ∧
        ∀ n, ∃ next, (clock.after times (n + 1)).nextDue = some next ∧
          Moves period (times n) (clock.isPresented times n)
            ((clock.after times n).nextDue.getD (times n)) next ∧
          times n < next ∧ next ≤ times n + period ∧ ∃ k : Nat, next = times 0 + k * period) ∧
      ∀ (start : K) (n : Nat), 1 ≤ n →
        (((List.range n).countP (clock.isPresented (clock.timeOf start)) : Nat) : Int) =
          ⌊((n : K) - 1) * rate / target.toScalar⌋ + 1 := by
  obtain ⟨hregular, htarget⟩ := regular_of_ofRates h
  obtain ⟨hfirst, hperiod⟩ := presentTime_of_ofRates h
  have hpos := hregular.presentTime_pos
  dsimp only
  rw [← hperiod]
  refine ⟨rfl, fun times htimes => ⟨isPresented_zero hregular hfirst, fun n => ?_, fun n => ?_⟩,
    fun start n hn => ?_⟩
  · rw [isPresented_succ hregular hfirst htimes, decide_eq_true_iff, dueAfter_le_iff hpos]
  · have hmem := dueAfter_mem hpos (times 0) (times n)
    refine ⟨dueAfter clock.presentTime (times 0) (times n), ?_, moves hregular hfirst htimes n,
      hmem.1, hmem.2, exists_dueAfter_eq hpos (htimes n.zero_le)⟩
    rw [after_succ hregular hfirst htimes]
    rfl
  · obtain ⟨n, rfl⟩ : ∃ m, n = m + 1 := ⟨n - 1, by omega⟩
    have hrate : 0 < min (presented.getD target).toScalar target.toScalar := by
      rw [hperiod] at hpos
      exact (div_pos_iff_of_pos_left (by norm_num)).mp hpos
    have htarget' : 0 < target.toScalar := htarget ▸ hregular.targetRate
    rw [countP_isPresented hregular hfirst start rfl ?_, htarget, hperiod]
    · congr 2
      push_cast
      field_simp
      ring
    · rw [htarget, hperiod, div_div_div_cancel_left' _ _ (by norm_num), div_le_one htarget']
      exact min_le_right _ _

/-- Three times at a distance of ten, and then more at a distance of seven behind a long delay. -/
def stalledTimes (n : Nat) : Rat := if n < 3 then 10 * n else 1000 + 7 * n

/-- A hundred frames in a second, of which thirty are presented: the first frame behind a delay is,
and the one after that is not. -/
theorem present_cadence_stalled :
    ∃ clock : FrameClock Rat, ofRates (.int 100) (some (.int 30)) = .ok clock ∧
      Monotone stalledTimes ∧ clock.presentTime = 100 / 3 ∧
      clock.isPresented stalledTimes 0 = true ∧ clock.isPresented stalledTimes 2 = false ∧
      clock.isPresented stalledTimes 3 = true ∧ clock.isPresented stalledTimes 4 = false ∧
      ((List.range 100).countP (clock.isPresented (clock.timeOf 50)) : Int) = 30 := by
  have hclock : ofRates (α := Rat) (.int 100) (some (.int 30)) =
      .ok ⟨.int 100, some (.int 30), none⟩ := rfl
  have htimes : Monotone stalledTimes := by
    refine monotone_nat_of_le_succ fun n => ?_
    unfold stalledTimes
    split_ifs with hn hnext
    · push_cast
      linarith
    · have hthree : (n : Rat) < 3 := by exact_mod_cast hn
      push_cast
      linarith
    · omega
    · push_cast
      linarith
  obtain ⟨hperiod, hanswers, hframes⟩ := present_cadence hclock
  obtain ⟨hfirst, hnext, -⟩ := hanswers stalledTimes htimes
  refine ⟨_, hclock, htimes, hperiod.trans (by decide +kernel), hfirst, ?_, (hnext 2).mpr ?_, ?_,
    (hframes 50 100 (by decide)).trans (by decide +kernel)⟩
  · exact Bool.eq_false_iff.mpr fun h => absurd ((hnext 1).mp h) (by decide +kernel)
  · decide +kernel
  · exact Bool.eq_false_iff.mpr fun h => absurd ((hnext 3).mp h) (by decide +kernel)

end FrameClock

end CanvasScript
