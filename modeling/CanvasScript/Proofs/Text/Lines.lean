import CanvasScript.Text.Blank
import CanvasScript.Text.Lines
import Mathlib.Data.List.Basic

/-!
# Joined lines

Lines that do not break inside are cut where line feeds join them. The last one must hold something,
since a break at the very end opens no further line.

* `lines_intercalate`: **joined lines are cut where they were joined**.
* `mem_lines`: **what stands unbroken between two breaks is a line**.
-/

namespace CanvasScript.Text

/-- None of the characters breaks the line. -/
def Unbroken (s : List Char) : Prop := ∀ c ∈ s, isLineBreak c = false

instance (s : List Char) : Decidable (Unbroken s) := List.decidableBAll _ s

theorem Unbroken.append {s t : List Char} (hs : Unbroken s) (ht : Unbroken t) : Unbroken (s ++ t) :=
  List.forall_mem_append.mpr ⟨hs, ht⟩

theorem Unbroken.cons {c : Char} {s : List Char} (hc : isLineBreak c = false) (hs : Unbroken s) :
    Unbroken (c :: s) :=
  List.forall_mem_cons.mpr ⟨hc, hs⟩

theorem Unbroken.intercalate {separator : List Char} (hs : Unbroken separator)
    {joined : List (List Char)} (h : ∀ s ∈ joined, Unbroken s) :
    Unbroken (separator.intercalate joined) := by
  induction joined with
  | nil => exact fun _ hc => nomatch hc
  | cons s rest ih =>
    obtain ⟨hfirst, hrest⟩ := List.forall_mem_cons.mp h
    cases rest with
    | nil =>
      rw [List.intercalate_singleton]
      exact hfirst
    | cons next rest =>
      rw [List.intercalate_cons_cons]
      exact (hfirst.append hs).append (ih hrest)

/-- What is joined last stands at the end. -/
theorem exists_intercalate_concat {separator : List Char} (hs : Unbroken separator)
    {joined : List (List Char)} (h : ∀ s ∈ joined, Unbroken s) (last : List Char) :
    ∃ front, Unbroken front ∧ separator.intercalate (joined ++ [last]) = front ++ last := by
  induction joined with
  | nil => exact ⟨[], fun _ hc => (nomatch hc), by simp⟩
  | cons s rest ih =>
    obtain ⟨hfirst, hrest⟩ := List.forall_mem_cons.mp h
    obtain ⟨front, hfront, hjoined⟩ := ih hrest
    obtain ⟨next, more, hmore⟩ := List.exists_cons_of_ne_nil
      (List.append_ne_nil_of_right_ne_nil rest (List.cons_ne_nil last []))
    refine ⟨s ++ separator ++ front, (hfirst.append hs).append hfront, ?_⟩
    rw [List.cons_append, hmore, List.intercalate_cons_cons, ← hmore, hjoined,
      List.append_assoc _ front]

/-- Line breaks are blanks. -/
theorem isLineBreak_eq_false {c : Char} (h : isBlank c = false) : isLineBreak c = false := by
  rw [← Bool.not_eq_true] at h ⊢
  unfold isBlank at h
  unfold isLineBreak
  simp only [Bool.or_eq_true, Bool.and_eq_true, decide_eq_true_eq, beq_iff_eq] at h ⊢
  omega

/-- A line goes on up to the next break. -/
theorem linesFrom_append {line : List Char} (h : Unbroken line)
    (started rest : List Char) :
    linesFrom started (line ++ rest) = linesFrom (line.reverse ++ started) rest := by
  induction line generalizing started with
  | nil => rfl
  | cons c line ih =>
    obtain ⟨hc, hline⟩ := List.forall_mem_cons.mp h
    rw [List.cons_append, linesFrom.eq_3, hc, List.reverse_cons, List.append_assoc]
    · exact ih hline (c :: started)
    · intro rest' hreturn _
      rw [hreturn] at hc
      exact absurd hc (by decide)

/-- **Joined lines are cut where they were joined.** -/
theorem lines_intercalate {joined : List (List Char)}
    (h : ∀ line ∈ joined, line ≠ [] ∧ Unbroken line) :
    lines (['\n'].intercalate joined) = joined := by
  induction joined with
  | nil => rfl
  | cons line rest ih =>
    obtain ⟨⟨hne, hline⟩, hrest⟩ := List.forall_mem_cons.mp h
    cases rest with
    | nil =>
      rw [List.intercalate_singleton]
      unfold lines
      rw [← List.append_nil line, linesFrom_append hline, List.append_nil, List.append_nil,
        linesFrom, if_neg, List.reverse_reverse]
      rw [List.isEmpty_reverse, List.isEmpty_iff]
      exact hne
    | cons next rest =>
      have hbreak : isLineBreak '\n' = true := by decide
      rw [List.intercalate_cons_cons]
      unfold lines
      rw [List.append_assoc, linesFrom_append hline, List.append_nil, List.singleton_append,
        linesFrom.eq_3, hbreak, if_pos rfl, List.reverse_reverse]
      · exact congrArg (line :: ·) (ih hrest)
      · intro rest' hreturn _
        exact absurd hreturn (by decide)

/-! ## Lines of a text -/

theorem forall_mem_getLast?_append {P : Char → Prop} {s t : List Char}
    (hs : ∀ c ∈ s.getLast?, P c) (ht : ∀ c ∈ t.getLast?, P c) : ∀ c ∈ (s ++ t).getLast?, P c := by
  rcases List.eq_nil_or_concat' t with rfl | ⟨t, last, rfl⟩
  · rwa [List.append_nil]
  · rw [← List.append_assoc, List.getLast?_concat]
    rwa [List.getLast?_concat] at ht

theorem forall_mem_head?_append {P : Char → Prop} {s t : List Char}
    (hs : ∀ c ∈ s.head?, P c) (ht : ∀ c ∈ t.head?, P c) : ∀ c ∈ (s ++ t).head?, P c := by
  cases s with
  | nil => exact ht
  | cons first s => exact hs

/-- What has begun is a line where a break follows or the text ends. -/
theorem reverse_mem_linesFrom {started rest : List Char} (hne : started ≠ [])
    (hrest : ∀ c ∈ rest.head?, isLineBreak c = true) :
    started.reverse ∈ linesFrom started rest := by
  unfold linesFrom
  split
  · rw [if_neg (by simpa using hne)]
    exact List.mem_cons_self ..
  · exact List.mem_cons_self ..
  · rename_i c rest _
    rw [if_pos (hrest c rfl)]
    exact List.mem_cons_self ..

/-- Characters that do not break are a line up to the next break. -/
theorem mem_linesFrom_nil {piece rest : List Char} (hpiece : Unbroken piece) (hne : piece ≠ [])
    (hrest : ∀ c ∈ rest.head?, isLineBreak c = true) : piece ∈ linesFrom [] (piece ++ rest) := by
  have hmem := reverse_mem_linesFrom (List.reverse_ne_nil_iff.mpr hne) hrest
  rw [linesFrom_append hpiece, List.append_nil]
  rwa [List.reverse_reverse] at hmem

/-- **What stands unbroken between two breaks is a line.** -/
theorem mem_linesFrom {piece rest : List Char} (hpiece : Unbroken piece) (hne : piece ≠ [])
    (hrest : ∀ c ∈ rest.head?, isLineBreak c = true) {b : Char} (hb : isLineBreak b = true) :
    ∀ (front started : List Char), piece ∈ linesFrom started (front ++ b :: (piece ++ rest))
  | [], started => by
    have hmem := mem_linesFrom_nil hpiece hne hrest
    rw [List.nil_append, linesFrom]
    · rw [if_pos hb]
      exact List.mem_cons_of_mem _ hmem
    · intro more _ hmore
      obtain ⟨first, piece, rfl⟩ := List.exists_cons_of_ne_nil hne
      obtain ⟨rfl, -⟩ := List.cons.inj hmore
      exact absurd (hpiece '\n' (List.mem_cons_self ..)) (by decide)
  | c :: front, started => by
    rw [List.cons_append, linesFrom.eq_def]
    split
    · rename_i h
      cases h
    · rename_i more h
      obtain ⟨rfl, htail⟩ := List.cons.inj h
      refine List.mem_cons_of_mem _ ?_
      cases front with
      | nil =>
        obtain ⟨rfl, rfl⟩ := List.cons.inj htail
        exact mem_linesFrom_nil hpiece hne hrest
      | cons d front =>
        obtain ⟨rfl, rfl⟩ := List.cons.inj htail
        exact mem_linesFrom hpiece hne hrest hb front []
    · rename_i d more _ h
      obtain ⟨rfl, rfl⟩ := List.cons.inj h
      split
      · exact List.mem_cons_of_mem _ (mem_linesFrom hpiece hne hrest hb front [])
      · exact mem_linesFrom hpiece hne hrest hb front _

/-- What stands unbroken between breaks, or the ends of a text, is a line. -/
theorem mem_lines {front piece rest : List Char} (hpiece : Unbroken piece) (hne : piece ≠ [])
    (hfront : ∀ c ∈ front.getLast?, isLineBreak c = true)
    (hrest : ∀ c ∈ rest.head?, isLineBreak c = true) :
    piece ∈ lines (front ++ (piece ++ rest)) := by
  rcases List.eq_nil_or_concat' front with rfl | ⟨front, b, rfl⟩
  · exact mem_linesFrom_nil hpiece hne hrest
  · rw [List.append_assoc, List.singleton_append]
    exact mem_linesFrom hpiece hne hrest (hfront b List.getLast?_concat) front []

/-- A line that is joined with others stands between line feeds, or at the ends. -/
theorem exists_intercalate {joined : List (List Char)} {line : List Char} (h : line ∈ joined) :
    ∃ front back, ['\n'].intercalate joined = front ++ (line ++ back) ∧
      (∀ c ∈ front.getLast?, isLineBreak c = true) ∧ ∀ c ∈ back.head?, isLineBreak c = true := by
  have hbreak : ∀ c ∈ some '\n', isLineBreak c = true := by
    rintro c ⟨⟩
    decide
  induction joined with
  | nil => cases h
  | cons first rest ih =>
    cases rest with
    | nil =>
      obtain rfl := List.mem_singleton.mp h
      exact ⟨[], [], by simp, fun _ hc => (nomatch hc), fun _ hc => nomatch hc⟩
    | cons next rest =>
      rw [List.intercalate_cons_cons]
      rcases List.mem_cons.mp h with rfl | h
      · exact ⟨[], ['\n'] ++ ['\n'].intercalate (next :: rest), by simp,
          fun _ hc => (nomatch hc), hbreak⟩
      · obtain ⟨front, back, hjoined, hfront, hback⟩ := ih h
        refine ⟨first ++ ['\n'] ++ front, back, by rw [hjoined, List.append_assoc _ front],
          forall_mem_getLast?_append ?_ hfront, hback⟩
        rwa [List.getLast?_concat]

/-! ## Breaks -/

/-- What is broken has a first break. -/
theorem exists_first_break {s : List Char} (h : ¬ Unbroken s) :
    ∃ front b back, s = front ++ b :: back ∧ Unbroken front ∧ isLineBreak b = true := by
  induction s with
  | nil => exact absurd (fun _ hc => nomatch hc) h
  | cons c s ih =>
    cases hc : isLineBreak c with
    | true => exact ⟨[], c, s, rfl, fun _ hc => (nomatch hc), hc⟩
    | false =>
      obtain ⟨front, b, back, rfl, hfront, hb⟩ := ih fun hs => h (hs.cons hc)
      exact ⟨c :: front, b, back, rfl, hfront.cons hc, hb⟩

/-- What is broken has a last break. -/
theorem exists_last_break {s : List Char} (h : ¬ Unbroken s) :
    ∃ front b back, s = front ++ b :: back ∧ isLineBreak b = true ∧ Unbroken back := by
  induction s with
  | nil => exact absurd (fun _ hc => nomatch hc) h
  | cons c s ih =>
    by_cases hs : Unbroken s
    · have hc : isLineBreak c = true := by
        by_contra hc
        exact h (hs.cons (Bool.eq_false_iff.mpr hc))
      exact ⟨[], c, s, rfl, hc, hs⟩
    · obtain ⟨front, b, back, rfl, hb, hback⟩ := ih hs
      exact ⟨c :: front, b, back, rfl, hb, hback⟩

end CanvasScript.Text
