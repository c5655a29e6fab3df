import CanvasScript.Text.Blank
import Mathlib.Data.List.DropRight

/-!
# Trimmed characters

Trimming takes away what stands at the ends and no more: the result is `Bare`, and bare characters
are left as they are (`trimBy_append`). A stretch of characters of a class ends where the first
other one stands.
-/

namespace CanvasScript.Text

variable {p : Char → Bool} {s : List Char}

/-- Neither the first nor the last of the characters belongs to a class. -/
structure Bare (p : Char → Bool) (s : List Char) : Prop where
  head : ∀ c ∈ s.head?, p c = false
  last : ∀ c ∈ s.getLast?, p c = false

theorem bare_of_all (h : ∀ c ∈ s, p c = false) : Bare p s :=
  ⟨fun c hc => h c (List.mem_of_mem_head? hc), fun c hc => h c (List.mem_of_mem_getLast? hc)⟩

theorem last_concat {last : Char} (h : p last = false) (s : List Char) :
    ∀ c ∈ (s ++ [last]).getLast?, p c = false := by
  intro c hc
  rw [List.getLast?_concat] at hc
  cases hc
  exact h

theorem bare_cons_concat {first last : Char} (hfirst : p first = false) (hlast : p last = false)
    (s : List Char) : Bare p (first :: s ++ [last]) := by
  refine ⟨?_, last_concat hlast _⟩
  rintro c ⟨⟩
  exact hfirst

theorem trimRight_eq_self (h : ∀ c ∈ s.getLast?, p c = false) : trimRight p s = s := by
  show s.rdropWhile p = s
  refine List.rdropWhile_eq_self_iff.mpr fun hne => ?_
  rw [h _ (List.getLast_mem_getLast? hne)]
  exact Bool.false_ne_true

theorem dropWhile_eq_self (h : ∀ c ∈ s.head?, p c = false) : s.dropWhile p = s := by
  cases s with
  | nil => rfl
  | cons c rest => exact List.dropWhile_cons_of_neg (by rw [h c rfl]; exact Bool.false_ne_true)

/-- A stretch of a class ends before the first other character. -/
theorem takeWhile_append_stop {t : List Char} (hs : ∀ c ∈ s, p c = true)
    (ht : ∀ c ∈ t.head?, p c = false) : (s ++ t).takeWhile p = s := by
  have hnil : t.takeWhile p = [] := by
    cases t with
    | nil => rfl
    | cons c t => exact List.takeWhile_cons_of_neg (by rw [ht c rfl]; exact Bool.false_ne_true)
  rw [List.takeWhile_append_of_pos hs, hnil, List.append_nil]

/-- What follows a stretch of a class starts with the first other character. -/
theorem dropWhile_append_stop {t : List Char} (hs : ∀ c ∈ s, p c = true)
    (ht : ∀ c ∈ t.head?, p c = false) : (s ++ t).dropWhile p = t := by
  rw [List.dropWhile_append_of_pos hs, dropWhile_eq_self ht]

/-- **Bare characters are left as they are.** -/
theorem trimBy_eq_self (h : Bare p s) : trimBy p s = s := by
  unfold trimBy
  rw [dropWhile_eq_self h.head, trimRight_eq_self h.last]

theorem head_dropWhile (p : Char → Bool) (s : List Char) :
    ∀ c ∈ (s.dropWhile p).head?, p c = false := by
  intro c hc
  have hnot := List.head?_dropWhile_not p s
  rw [Option.mem_def.mp hc] at hnot
  exact hnot

/-- **What is trimmed is bare.** -/
theorem bare_trimBy (p : Char → Bool) (s : List Char) : Bare p (trimBy p s) := by
  refine ⟨fun c hc => ?_, fun c hc => ?_⟩
  · -- what is left on the right starts as it did
    obtain ⟨rest, hrest⟩ := List.rdropWhile_prefix p (s.dropWhile p)
    refine head_dropWhile p s c ?_
    rw [← hrest, List.head?_append, Option.mem_def]
    have hc : ((s.dropWhile p).rdropWhile p).head? = some c := hc
    rw [hc]
    rfl
  · unfold trimBy trimRight at hc
    rw [List.getLast?_reverse] at hc
    exact head_dropWhile p _ c hc

/-- **Trimming takes away characters of the class** on both sides. -/
theorem exists_trimBy (p : Char → Bool) (s : List Char) : ∃ lead trail,
    (∀ c ∈ lead, p c = true) ∧ (∀ c ∈ trail, p c = true) ∧ s = lead ++ (trimBy p s ++ trail) := by
  have hall (s : List Char) : ∀ c ∈ s.takeWhile p, p c = true :=
    List.all_eq_true.mp List.all_takeWhile
  refine ⟨s.takeWhile p, (s.dropWhile p).rtakeWhile p, hall s, fun c hc => ?_, ?_⟩
  · exact hall _ c (List.mem_reverse.mp hc)
  · have hright : trimBy p s ++ (s.dropWhile p).rtakeWhile p = s.dropWhile p := by
      show (s.dropWhile p).rdropWhile p ++ (s.dropWhile p).rtakeWhile p = s.dropWhile p
      unfold List.rdropWhile List.rtakeWhile
      rw [← List.reverse_append, List.takeWhile_append_dropWhile, List.reverse_reverse]
    rw [hright, List.takeWhile_append_dropWhile]

theorem mem_trimBy_of_mem {c : Char} (hc : c ∈ s) (hp : p c = false) : c ∈ trimBy p s := by
  obtain ⟨lead, trail, hlead, htrail, hs⟩ := exists_trimBy p s
  rw [hs] at hc
  rcases List.mem_append.mp hc with hc | hc
  · exact Bool.noConfusion (hp.symm.trans (hlead c hc))
  · rcases List.mem_append.mp hc with hc | hc
    · exact hc
    · exact Bool.noConfusion (hp.symm.trans (htrail c hc))

/-- What is bare is left of characters of the class on both sides. -/
theorem trimBy_append {lead trail : List Char} (hs : Bare p s) (hlead : ∀ c ∈ lead, p c = true)
    (htrail : ∀ c ∈ trail, p c = true) : trimBy p (lead ++ (s ++ trail)) = s := by
  have htrail' : ∀ c ∈ trail.reverse, p c = true := fun c hc => htrail c (List.mem_reverse.mp hc)
  by_cases hne : s = []
  · -- all of it belongs to the class, so nothing is left for the right side
    have hall : ∀ c ∈ lead ++ trail, p c = true := List.forall_mem_append.mpr ⟨hlead, htrail⟩
    unfold trimBy
    rw [hne, List.nil_append, List.dropWhile_eq_nil_iff.mpr hall]
    rfl
  · have hhead : ∀ c ∈ (s ++ trail).head?, p c = false := by
      rw [List.head?_append_of_ne_nil s hne]
      exact hs.head
    have hlast : ∀ c ∈ s.reverse.head?, p c = false := by
      rw [List.head?_reverse]
      exact hs.last
    unfold trimBy trimRight
    rw [dropWhile_append_stop hlead hhead, List.reverse_append, dropWhile_append_stop htrail' hlast,
      List.reverse_reverse]

end CanvasScript.Text
