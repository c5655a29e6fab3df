import CanvasScript.Raster.Line
import Mathlib.Algebra.Order.Field.Basic
import Mathlib.Data.Rat.Cast.Order
import Mathlib.Logic.Function.Iterate
import Mathlib.Tactic.FieldSimp
import Mathlib.Tactic.Linarith
import Mathlib.Tactic.Ring

/-!
# Straight walks

A walk between two cells (`_stamp_segment`) is a loop without a bound: it goes on until it stands on
the target. In each round an error decides which coordinates move. Along the longer axis every round
moves by one, and the error tells how far the walk has come off the straight line along the other
axis.

* `Cell.course start finish i` is the state of the loop after `i` rounds.
* `Bearing.Steady i j state`: the state after `i` rounds where the first axis is the longer one and
  the second coordinate has moved `j` times. The error is off by less than half a cell.

Results:
* `Bearing.Steady.advance`: **one round moves along the longer axis and keeps the error small**.
* `Bearing.exists_steady`: so a whole course does.
* `Cell.course_transpose`: exchanging the axes exchanges the courses, so one case is enough.
* `Cell.goesStraight`: **the loop stops on the target after as many rounds as the cells are apart**,
  and every cell on the way is next to the line.
-/

namespace CanvasScript

namespace Cell

/-- The cell with its axes exchanged. -/
def transpose (cell : Cell) : Cell := ⟨cell.y, cell.x⟩

theorem transpose_inj {c d : Cell} : c.transpose = d.transpose ↔ c = d :=
  ⟨fun h => congrArg transpose h, fun h => congrArg transpose h⟩

/-- The state of the walk between two cells after some rounds of its loop. -/
def course (start finish : Cell) (rounds : Nat) : Cell × Int :=
  let bearing := Bearing.between start finish
  bearing.advance^[rounds] (start, bearing.dx + bearing.dy)

/-- The second coordinate of the straight line through two cells, where the first one is `x`. -/
def heightAt (start finish : Cell) (x : Int) : Rat :=
  start.y + (x - start.x) * ((finish.y - start.y) / (finish.x - start.x))

/-- How the first coordinate of a course goes, and how the course stands to the line where the first
axis is the longer one. -/
structure Follows (start finish : Cell) (visited : Nat → Cell) (count : Nat) : Prop where
  /-- A round moves the coordinate by one toward the target, or not at all. -/
  moves : ∀ i < count, (visited (i + 1)).x = (visited i).x ∨
    (visited (i + 1)).x = (visited i).x + (finish.x - start.x).sign
  /-- Along the longer axis every round moves by one. -/
  major : (finish.y - start.y).natAbs ≤ (finish.x - start.x).natAbs → ∀ i < count,
    (visited (i + 1)).x = (visited i).x + (finish.x - start.x).sign
  /-- Along the other axis every cell lies within half a cell of the line. -/
  near : (finish.y - start.y).natAbs ≤ (finish.x - start.x).natAbs → ∀ i ≤ count,
    |(visited i).y - heightAt start finish (visited i).x| ≤ 1 / 2

/-- A course goes straight from one cell to another, in some count of rounds. -/
structure GoesStraight (start finish : Cell) (visited : Nat → Cell) (count : Nat) : Prop where
  /-- It stands on the target after the last round, and not before. -/
  stops : ∀ i ≤ count, visited i = finish ↔ i = count
  first : Follows start finish visited count
  second : Follows start.transpose finish.transpose (fun i => (visited i).transpose) count

end Cell

/-! ## The first axis is the longer one -/

namespace Bearing

/-- The state after `i` rounds along the longer axis, which is the first. The other coordinate has
moved `j` times, and is as close to the line as it can be. -/
structure Steady (bearing : Bearing) (start : Cell) (i j : Int) (state : Cell × Int) : Prop where
  x_eq : state.1.x = start.x + i * bearing.stepX
  y_eq : state.1.y = start.y + j * bearing.stepY
  error_eq : state.2 = (j + 1) * bearing.dx + (i + 1) * bearing.dy
  below : -bearing.dx ≤ 2 * (j * bearing.dx + i * bearing.dy)
  above : 2 * (j * bearing.dx + i * bearing.dy) ≤ bearing.dx

variable {bearing : Bearing} {start : Cell} {i j : Int} {state : Cell × Int}

/-- **One round moves along the longer axis, and keeps close to the line.** -/
theorem Steady.advance (hdy : bearing.dy ≤ 0) (hmajor : -bearing.dy ≤ bearing.dx)
    (h : Steady bearing start i j state) :
    ∃ j', (j' = j ∨ j' = j + 1) ∧ Steady bearing start (i + 1) j' (bearing.advance state) := by
  obtain ⟨cell, error⟩ := state
  obtain ⟨hx, hy, herror, hbelow, habove⟩ := h
  dsimp only at hx hy herror
  have halongX : bearing.dy ≤ 2 * error := by
    rw [herror]
    linarith
  by_cases halongY : 2 * error ≤ bearing.dx
  · have hadvance : bearing.advance (cell, error) =
        (⟨cell.x + bearing.stepX, cell.y + bearing.stepY⟩, error + bearing.dy + bearing.dx) := by
      simp [Bearing.advance, halongX, halongY]
    rw [herror] at halongY
    rw [hadvance]
    refine ⟨j + 1, .inr rfl, ?_, ?_, ?_, ?_, ?_⟩ <;> linarith
  · have hadvance : bearing.advance (cell, error) =
        (⟨cell.x + bearing.stepX, cell.y⟩, error + bearing.dy) := by
      simp [Bearing.advance, halongX, halongY]
    rw [herror, not_le] at halongY
    rw [hadvance]
    refine ⟨j, .inl rfl, ?_, ?_, ?_, ?_, ?_⟩ <;> linarith

/-- A course along the first axis goes on as it began. -/
theorem exists_steady (hdy : bearing.dy ≤ 0) (hmajor : -bearing.dy ≤ bearing.dx) (start : Cell) :
    ∀ rounds : Nat, ∃ j, Steady bearing start rounds j
      (bearing.advance^[rounds] (start, bearing.dx + bearing.dy)) := by
  intro rounds
  induction rounds with
  | zero =>
    refine ⟨0, ?_, ?_, ?_, ?_, ?_⟩ <;> simp <;> linarith
  | succ rounds ih =>
    obtain ⟨j, hsteady⟩ := ih
    obtain ⟨j', -, hnext⟩ := hsteady.advance hdy hmajor
    rw [Function.iterate_succ_apply']
    exact ⟨j', by exact_mod_cast hnext⟩

/-- Where the line goes through a cell, the course does. -/
theorem Steady.eq_of_on_line (hdx : 0 < bearing.dx) (h : Steady bearing start i j state) {k : Int}
    (hk : i * bearing.dy = -(k * bearing.dx)) : j = k := by
  have hbelow := h.below
  have habove := h.above
  rw [hk] at hbelow habove
  rcases lt_trichotomy j k with hlt | heq | hgt
  · have := mul_le_mul_of_nonneg_right (Int.add_one_le_iff.mpr hlt) hdx.le
    linarith
  · exact heq
  · have := mul_le_mul_of_nonneg_right (Int.add_one_le_iff.mpr hgt) hdx.le
    linarith

/-- A steady course is off the line by half a cell at most. -/
theorem Steady.abs_offset_le (hdx : 0 < bearing.dx) (h : Steady bearing start i j state) :
    |((j * bearing.dx + i * bearing.dy : Int) : Rat) / bearing.dx| ≤ 1 / 2 := by
  have hpos : (0 : Rat) < bearing.dx := by exact_mod_cast hdx
  have hbelow : -(bearing.dx : Rat) ≤ 2 * (j * bearing.dx + i * bearing.dy : Int) := by
    exact_mod_cast h.below
  have habove : 2 * ((j * bearing.dx + i * bearing.dy : Int) : Rat) ≤ bearing.dx := by
    exact_mod_cast h.above
  rw [abs_le, le_div_iff₀ hpos, div_le_iff₀ hpos]
  constructor <;> linarith

/-- Unit steps lead from one coordinate to another. -/
theorem add_natAbs_mul_unitStep (u v : Int) : u + (v - u).natAbs * unitStep u v = v := by
  unfold unitStep
  split <;> omega

theorem unitStep_eq_sign {u v : Int} (h : u ≠ v) : unitStep u v = (v - u).sign := by
  unfold unitStep
  rcases lt_or_gt_of_ne h with hlt | hgt
  · rw [if_pos hlt, Int.sign_eq_one_of_pos (by omega)]
  · rw [if_neg (by omega), Int.sign_eq_neg_one_of_neg (by omega)]

theorem abs_unitStep (u v : Int) : |(unitStep u v : Rat)| = 1 := by
  unfold unitStep
  split <;> simp

section Between

variable (start finish : Cell)

theorem finish_x_eq :
    start.x + (between start finish).dx * (between start finish).stepX = finish.x :=
  add_natAbs_mul_unitStep start.x finish.x

theorem finish_y_eq :
    start.y + -(between start finish).dy * (between start finish).stepY = finish.y := by
  show start.y + - -((finish.y - start.y).natAbs : Int) * _ = _
  rw [neg_neg]
  exact add_natAbs_mul_unitStep start.y finish.y

theorem dy_between_nonpos : (between start finish).dy ≤ 0 := by
  show -((finish.y - start.y).natAbs : Int) ≤ 0
  omega

variable {start finish}

/-- How far a steady course is off the line. -/
theorem Steady.sub_heightAt (hdx : 0 < (between start finish).dx)
    (h : Steady (between start finish) start i j state) :
    (state.1.y : Rat) - Cell.heightAt start finish state.1.x =
      (between start finish).stepY * ((j * (between start finish).dx +
        i * (between start finish).dy : Int) / (between start finish).dx) := by
  have hstepX : ((between start finish).stepX : Rat) ≠ 0 :=
    abs_ne_zero.mp ((abs_unitStep start.x finish.x).trans_ne one_ne_zero)
  have hwayX : (finish.x : Rat) - start.x =
      (between start finish).dx * (between start finish).stepX := by
    rw [← finish_x_eq start finish]
    push_cast
    ring
  have hwayY : (finish.y : Rat) - start.y =
      -(between start finish).dy * (between start finish).stepY := by
    rw [← finish_y_eq start finish]
    push_cast
    ring
  have hdx' : ((between start finish).dx : Rat) ≠ 0 := by exact_mod_cast hdx.ne'
  unfold Cell.heightAt
  rw [hwayX, hwayY, h.x_eq, h.y_eq]
  push_cast
  field_simp
  ring

end Between

end Bearing

namespace Cell

open Bearing

theorem course_succ (start finish : Cell) (rounds : Nat) :
    course start finish (rounds + 1) =
      (between start finish).advance (course start finish rounds) :=
  Function.iterate_succ_apply' _ _ _

section Major

variable {start finish : Cell} {rounds : Nat}
  (hmajor : (finish.y - start.y).natAbs ≤ (finish.x - start.x).natAbs)

include hmajor

omit rounds in
theorem dy_between_le : -(between start finish).dy ≤ (between start finish).dx := by
  show - -((finish.y - start.y).natAbs : Int) ≤ (finish.x - start.x).natAbs
  omega

/-- A course is steady as long as the first axis is the longer one. -/
theorem steady_course (rounds : Nat) :
    ∃ j, Steady (between start finish) start rounds j (course start finish rounds) :=
  exists_steady (dy_between_nonpos start finish) (dy_between_le hmajor) start rounds

theorem x_course (rounds : Nat) :
    (course start finish rounds).1.x = start.x + rounds * (between start finish).stepX := by
  obtain ⟨j, hsteady⟩ := steady_course hmajor rounds
  exact hsteady.x_eq

omit hmajor in
/-- As long as there is a way to go along the first axis, its step has the sign of that way. -/
theorem pos_of_lt {n : Nat} (h : n < (finish.x - start.x).natAbs) :
    0 < (between start finish).dx ∧ (between start finish).stepX = (finish.x - start.x).sign := by
  constructor
  · show (0 : Int) < (finish.x - start.x).natAbs
    omega
  · exact unitStep_eq_sign fun heq => by omega

/-- The second coordinate has gone all its way when the first has. -/
theorem y_course_end : (course start finish (finish.x - start.x).natAbs).1.y = finish.y := by
  by_cases hx : finish.x = start.x
  · have hrounds : (finish.x - start.x).natAbs = 0 := by omega
    rw [hrounds]
    show start.y = finish.y
    omega
  · have hdx : 0 < (between start finish).dx := (pos_of_lt (n := 0) (by omega)).1
    obtain ⟨j, hsteady⟩ := steady_course hmajor (finish.x - start.x).natAbs
    have hj : j = -(between start finish).dy := by
      refine hsteady.eq_of_on_line hdx ?_
      rw [neg_mul, neg_neg, mul_comm]
      rfl
    rw [hsteady.y_eq, hj, finish_y_eq]

theorem course_eq_finish_iff (rounds : Nat) :
    (course start finish rounds).1 = finish ↔ rounds = (finish.x - start.x).natAbs := by
  constructor
  · intro h
    have hx : finish.x = start.x + rounds * unitStep start.x finish.x :=
      (congrArg Cell.x h).symm.trans (x_course hmajor rounds)
    unfold unitStep at hx
    split at hx <;> omega
  · rintro rfl
    refine Cell.ext ?_ (y_course_end hmajor)
    rw [x_course hmajor]
    exact finish_x_eq start finish

/-- A round moves along the longer axis by one. -/
theorem x_course_succ (h : rounds < (finish.x - start.x).natAbs) :
    (course start finish (rounds + 1)).1.x =
      (course start finish rounds).1.x + (finish.x - start.x).sign := by
  rw [x_course hmajor, x_course hmajor, ← (pos_of_lt h).2]
  push_cast
  ring

/-- A round moves along the other axis by one, or not at all. -/
theorem y_course_succ (h : rounds < (finish.x - start.x).natAbs) :
    (course start finish (rounds + 1)).1.y = (course start finish rounds).1.y ∨
      (course start finish (rounds + 1)).1.y =
        (course start finish rounds).1.y + (finish.y - start.y).sign := by
  obtain ⟨j, hsteady⟩ := steady_course hmajor rounds
  obtain ⟨j', hj', hnext⟩ :=
    hsteady.advance (dy_between_nonpos start finish) (dy_between_le hmajor)
  rw [course_succ, hnext.y_eq, hsteady.y_eq]
  by_cases hlevel : start.y = finish.y
  · -- a level course never leaves its line
    have hdy : (between start finish).dy = 0 := by
      show -((finish.y - start.y).natAbs : Int) = 0
      omega
    have hdx := (pos_of_lt h).1
    rw [hsteady.eq_of_on_line hdx (k := 0) (by rw [hdy]; ring),
      hnext.eq_of_on_line hdx (k := 0) (by rw [hdy]; ring)]
    exact .inl rfl
  · have hstep : (between start finish).stepY = (finish.y - start.y).sign := unitStep_eq_sign hlevel
    rcases hj' with rfl | rfl
    · exact .inl rfl
    · right
      rw [hstep]
      ring

/-- Every cell lies within half a cell of the line along the other axis. -/
theorem near_course (h : rounds ≤ (finish.x - start.x).natAbs) :
    |((course start finish rounds).1.y : Rat) -
      heightAt start finish (course start finish rounds).1.x| ≤ 1 / 2 := by
  rcases Nat.eq_zero_or_pos (finish.x - start.x).natAbs with hstill | hpos
  · obtain rfl : rounds = 0 := by omega
    show |(start.y : Rat) - heightAt start finish start.x| ≤ 1 / 2
    simp [heightAt]
  · obtain ⟨j, hsteady⟩ := steady_course hmajor rounds
    have hdx := (pos_of_lt hpos).1
    have hstep : |((between start finish).stepY : Rat)| = 1 := abs_unitStep _ _
    rw [hsteady.sub_heightAt hdx, abs_mul, hstep, one_mul]
    exact hsteady.abs_offset_le hdx

end Major

/-! ## Either axis -/

end Cell

namespace Bearing

/-- The bearing with its axes exchanged. -/
def transpose (bearing : Bearing) : Bearing :=
  ⟨-bearing.dy, -bearing.dx, bearing.stepY, bearing.stepX⟩

theorem between_transpose (start finish : Cell) :
    between start.transpose finish.transpose = (between start finish).transpose := by
  simp [between, transpose, Cell.transpose]

/-- A round with the axes exchanged: the error counts the other way. -/
theorem advance_transpose (bearing : Bearing) (state : Cell × Int) :
    bearing.transpose.advance (state.1.transpose, -state.2) =
      ((bearing.advance state).1.transpose, -(bearing.advance state).2) := by
  obtain ⟨cell, error⟩ := state
  have halongX : -bearing.dx ≤ 2 * -error ↔ 2 * error ≤ bearing.dx := by omega
  have halongY : 2 * -error ≤ -bearing.dy ↔ bearing.dy ≤ 2 * error := by omega
  simp only [advance, transpose, Cell.transpose, halongX, halongY, Prod.mk.injEq, true_and]
  split <;> split <;> omega

end Bearing

namespace Cell

open Bearing

/-- **Exchanging the axes exchanges the courses.** -/
theorem course_transpose (start finish : Cell) (rounds : Nat) :
    (course start.transpose finish.transpose rounds).1 =
      (course start finish rounds).1.transpose := by
  have hboth : course start.transpose finish.transpose rounds =
      ((course start finish rounds).1.transpose, -(course start finish rounds).2) := by
    induction rounds with
    | zero =>
      show (start.transpose, (between start.transpose finish.transpose).dx +
        (between start.transpose finish.transpose).dy) =
        (start.transpose, -((between start finish).dx + (between start finish).dy))
      rw [between_transpose, neg_add, add_comm]
      rfl
    | succ rounds ih =>
      rw [course_succ, course_succ, ih, between_transpose, advance_transpose]
  rw [hboth]

/-- What a course does where the first axis is the longer one. -/
theorem follows_of_major (start finish : Cell)
    (hmajor : (finish.y - start.y).natAbs ≤ (finish.x - start.x).natAbs) :
    (∀ i ≤ distance start finish, (course start finish i).1 = finish ↔ i = distance start finish) ∧
      Follows start finish (fun i => (course start finish i).1) (distance start finish) ∧
      ∀ i < distance start finish,
        (course start finish (i + 1)).1.y = (course start finish i).1.y ∨
          (course start finish (i + 1)).1.y =
            (course start finish i).1.y + (finish.y - start.y).sign := by
  have hdistance : distance start finish = (finish.x - start.x).natAbs := max_eq_left hmajor
  rw [hdistance]
  refine ⟨fun i _ => course_eq_finish_iff hmajor i, ?_, fun i hi => y_course_succ hmajor hi⟩
  constructor
  case moves => exact fun i hi => .inr (x_course_succ hmajor hi)
  case major => exact fun _ i hi => x_course_succ hmajor hi
  case near => exact fun _ i hi => near_course hmajor hi

/-- **The loop goes straight**: it stops on the target after as many rounds as the cells are apart,
and stays next to the line all the way. -/
theorem goesStraight (start finish : Cell) :
    GoesStraight start finish (fun i => (course start finish i).1) (distance start finish) := by
  have hfirst (h : (finish.y - start.y).natAbs ≤ (finish.x - start.x).natAbs) :=
    follows_of_major start finish h
  have hsecond (h : (finish.x - start.x).natAbs ≤ (finish.y - start.y).natAbs) :=
    follows_of_major start.transpose finish.transpose h
  have hdistance : distance start.transpose finish.transpose = distance start finish :=
    Nat.max_comm _ _
  simp only [hdistance, course_transpose, transpose_inj] at hsecond
  rcases le_total (finish.y - start.y).natAbs (finish.x - start.x).natAbs with hle | hle
  · obtain ⟨hstops, hfollows, hmoves⟩ := hfirst hle
    exact ⟨hstops, hfollows, hmoves, fun h => (hsecond h).2.1.major h,
      fun h => (hsecond h).2.1.near h⟩
  · obtain ⟨hstops, hfollows, hmoves⟩ := hsecond hle
    exact ⟨hstops, ⟨hmoves, fun h => (hfirst h).2.1.major h, fun h => (hfirst h).2.1.near h⟩,
      hfollows⟩

/-! ## The loop -/

/-- As long as the target is not reached, the loop goes on. -/
theorem walk_eq (target : Cell) (bearing : Bearing) :
    ∀ (fuel : Nat) (state : Cell × Int),
      (∀ i < fuel, (bearing.advance^[i] state).1 ≠ target) →
      walk target bearing fuel state =
        (List.range (fuel + 1)).map fun i => (bearing.advance^[i] state).1
  | 0, _, _ => rfl
  | fuel + 1, state, h => by
    have hstart : state.1 ≠ target := h 0 fuel.succ_pos
    have hrest : ∀ i < fuel, (bearing.advance^[i] (bearing.advance state)).1 ≠ target :=
      fun i hi => h (i + 1) (Nat.succ_lt_succ hi)
    rw [walk, if_neg hstart, walk_eq target bearing fuel _ hrest,
      List.range_succ_eq_map (n := fuel + 1), List.map_cons, List.map_map]
    rfl

/-- **A line is the whole course**, with both ends. -/
theorem line_eq_course (start finish : Cell) :
    line start finish =
      (List.range (distance start finish + 1)).map fun i => (course start finish i).1 := by
  refine walk_eq finish _ _ _ fun i hi => ?_
  exact mt ((goesStraight start finish).stops i hi.le).mp hi.ne

end Cell

end CanvasScript
