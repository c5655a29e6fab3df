import CanvasScript.Json.Reader
import CanvasScript.Json.Writer
import CanvasScript.Proofs.Binary64.Range
import CanvasScript.Proofs.Binary64.Shortest

/-!
# Numbers in JSON

A number is read digit by digit, and what may follow it in a document does not go on with it.

* `EndsNumber` says that of the characters behind a number.
* `readNumber_text`: **a decimal is read as its parts**.
* `readWord_writtenNumber`: **a number reads back**: an integer that is not too long, and a finite
  double, exactly.
-/

namespace CanvasScript

namespace Json

open Decimal Text

/-- What follows does not go on with a number. -/
def EndsNumber (rest : List Char) : Prop :=
  ∀ c ∈ rest.head?, c.isDigit = false ∧ c ≠ '.' ∧ c ≠ 'e' ∧ c ≠ 'E'

/-! ## The parts of a number -/

section

variable {s rest : List Char}

theorem leadingDigits_append (hs : ∀ c ∈ s, c.isDigit = true)
    (hrest : ∀ c ∈ rest.head?, c.isDigit = false) : leadingDigits (s ++ rest) = (s, rest) :=
  Prod.ext (takeWhile_append_stop hs hrest) (dropWhile_append_stop hs hrest)

theorem decimals_point (hs : ∀ c ∈ s, c.isDigit = true) (hne : s ≠ [])
    (hrest : ∀ c ∈ rest.head?, c.isDigit = false) : decimals ('.' :: (s ++ rest)) = (s, rest) := by
  unfold decimals
  simp only [leadingDigits_append hs hrest]
  exact if_neg (by simpa using hne)

theorem decimals_none (h : ∀ c ∈ rest.head?, c ≠ '.') : decimals rest = ([], rest) := by
  unfold decimals
  split
  · exact absurd rfl (h '.' rfl)
  · rfl

theorem exponent_none (h : ∀ c ∈ rest.head?, c ≠ 'e' ∧ c ≠ 'E') :
    Json.exponent rest = (none, rest) := by
  unfold Json.exponent
  split
  · rename_i c rest
    obtain ⟨hsmall, hlarge⟩ := h c rfl
    exact if_neg (by simp [hsmall, hlarge])
  · rfl

/-- A written exponent is read up to its last digit. -/
theorem exponent_exponent (e : Int) (hrest : ∀ c ∈ rest.head?, c.isDigit = false) :
    Json.exponent ('e' :: Decimal.exponent e ++ rest) = (some e, rest) := by
  have hdigits := all_padLeft 2 (isDigit_of_mem_digits (n := e.natAbs))
  have hne : padLeft 2 (digits e.natAbs) ≠ [] := fun h =>
    digits_ne_nil e.natAbs (List.append_eq_nil_iff.mp h).2
  have hread := leadingDigits_append hdigits hrest
  have hvalue : value (padLeft 2 (digits e.natAbs)) = e.natAbs :=
    (value_padLeft _ _).trans (value_digits _)
  unfold Json.exponent Decimal.exponent
  rw [List.cons_append, List.cons_append]
  by_cases he : e < 0
  · simp only [if_pos he, beq_self_eq_true, Bool.true_or, if_true, hread, hvalue]
    rw [if_neg (by simpa using hne)]
    congr 2
    omega
  · simp only [if_neg he, beq_self_eq_true, Bool.true_or, if_true, hread, hvalue]
    rw [if_neg (by simpa using hne), if_neg Bool.false_ne_true, Int.natAbs_of_nonneg (by omega)]

end

/-! ## Decimals -/

section

variable {p : Parts} {rest : List Char}

theorem head_powerText (hrest : EndsNumber rest) :
    ∀ c ∈ (p.powerText ++ rest).head?, c.isDigit = false ∧ c ≠ '.' := by
  unfold Parts.powerText
  split
  · exact fun c hc => ⟨(hrest c hc).1, (hrest c hc).2.1⟩
  · rintro c ⟨⟩
    decide

theorem head_tail (hrest : EndsNumber rest) :
    ∀ c ∈ (p.tail ++ rest).head?, c.isDigit = false := by
  unfold Parts.tail
  split
  · exact fun c hc => (head_powerText hrest c hc).1
  · rintro c ⟨⟩
    decide

/-- What stands behind a point is read up to the exponent. -/
theorem decimals_tail (h : p.IsProper) (hrest : EndsNumber rest) :
    Json.decimals (p.tail ++ rest) = (p.decimals, p.powerText ++ rest) := by
  unfold Parts.tail
  split
  · rename_i hdecimals
    rw [hdecimals]
    exact decimals_none fun c hc => (head_powerText hrest c hc).2
  · rename_i hdecimals
    rw [List.cons_append, List.append_assoc]
    exact decimals_point h.decimals hdecimals fun c hc => (head_powerText hrest c hc).1

theorem exponent_powerText (hrest : EndsNumber rest) :
    Json.exponent (p.powerText ++ rest) = (p.power, rest) := by
  unfold Parts.powerText
  split
  · rename_i hpower
    rw [hpower]
    exact exponent_none fun c hc => (hrest c hc).2.2
  · rename_i e hpower
    rw [hpower]
    exact exponent_exponent e fun c hc => (hrest c hc).1

/-- The digits in front are read up to the point. A zero there stands alone. -/
theorem front_text (h : p.IsProper) (hrest : EndsNumber rest) :
    (match p.text ++ rest with
      | '0' :: more => (['0'], more)
      | _ => leadingDigits (p.text ++ rest)) = (p.whole, p.tail ++ rest) := by
  have hread := leadingDigits_append h.whole (head_tail (p := p) hrest)
  rw [← List.append_assoc] at hread
  obtain ⟨c, more, hwhole, hzero⟩ := h.front
  split
  · rename_i more' htext
    unfold Parts.text at htext
    rw [hwhole] at htext
    cases htext
    rw [hwhole, hzero rfl]
    rfl
  · exact hread

variable {α : Type} [Written α]

/-- **A number is read as its parts.** -/
theorem readNumber_text (h : p.IsProper) (hrest : EndsNumber rest) (negative : Bool) :
    readNumber (α := α) negative (p.text ++ rest) =
      if p.decimals.isEmpty && p.power.isNone then
        if digitLimit < p.whole.length then .error (.tooLong p.whole.length)
        else .ok (.int (if negative then -(value p.whole : Int) else value p.whole), rest)
      else .ok (.real (Written.ofDecimal negative p.count p.scale), rest) := by
  unfold readNumber
  split
  rename_i whole more hfront
  cases hfront.symm.trans (front_text h hrest)
  rw [if_neg (by simpa using h.ne_nil)]
  simp only [decimals_tail h hrest, exponent_powerText hrest]
  rfl

theorem readNumber_digits {n : Nat} (h : (digits n).length ≤ digitLimit) (hrest : EndsNumber rest)
    (negative : Bool) :
    readNumber (α := α) negative (digits n ++ rest) =
      .ok (.int (if negative then -(n : Int) else n), rest) := by
  have hfront : ∃ c more, digits n = c :: more ∧ (c = '0' → more = []) := by
    rcases Nat.eq_zero_or_pos n with rfl | hn
    · exact ⟨'0', [], by rw [digits]; rfl, fun _ => rfl⟩
    · obtain ⟨c, more, hdigits, hc⟩ := head_digits hn
      exact ⟨c, more, hdigits, fun hzero => absurd hzero hc⟩
  have hread := readNumber_text (α := α) (p := ⟨digits n, [], none⟩)
    ⟨isDigit_of_mem_digits, List.forall_mem_nil _, hfront⟩ hrest negative
  have htext : (Parts.mk (digits n) [] none).text = digits n := List.append_nil _
  rw [htext] at hread
  refine hread.trans ((if_neg (Nat.not_lt.mpr h)).trans ?_)
  rw [value_digits]

/-! ## Signs -/

/-- A number with a sign in front, if it is negative, is no word. -/
theorem readWord_sign {s : List Char} (hs : ∃ c more, s = c :: more ∧ c.isDigit = true)
    (negative : Bool) (rest : List Char) :
    readWord (α := α) ((if negative then '-' :: s else s) ++ rest) =
      readNumber negative (s ++ rest) := by
  obtain ⟨c, more, rfl, hc⟩ := hs
  cases negative with
  | true =>
    rw [if_pos rfl, List.cons_append, List.cons_append]
    generalize more ++ rest = tail
    rw [readWord]
    rintro _ ⟨⟩
    exact absurd hc (by decide)
  | false =>
    rw [if_neg Bool.false_ne_true, List.cons_append]
    generalize more ++ rest = tail
    rw [readWord]
    all_goals
      rintro _ ⟨⟩
      exact absurd hc (by decide)

end

/-! ## Numbers -/

/-- A number that is written as one: an integer with no more digits than are read, or a finite
double. -/
def WritableNumber : Number Float → Prop
  | .int n => (digits n.natAbs).length ≤ digitLimit
  | .real x => x.isFinite = true

/-- A number is written as digits with a sign in front, if it is negative, and is read from them. -/
theorem exists_writtenNumber {n : Number Float} (h : WritableNumber n) :
    ∃ negative s, (writtenNumber n).toList = (if negative then '-' :: s else s) ∧
      (∃ c more, s = c :: more ∧ c.isDigit = true) ∧
      ∀ {rest}, EndsNumber rest → readNumber negative (s ++ rest) = .ok (.number n, rest) := by
  cases n with
  | int n =>
    obtain ⟨c, more, hdigits⟩ := List.exists_cons_of_ne_nil (digits_ne_nil n.natAbs)
    have hc := isDigit_of_mem_digits c (hdigits ▸ List.mem_cons_self)
    refine ⟨decide (n < 0), digits n.natAbs, ?_, ⟨c, more, hdigits, hc⟩, fun hrest => ?_⟩
    · show (String.ofList (integer n)).toList = _
      rw [String.toList_ofList]
      unfold integer
      simp only [decide_eq_true_eq]
    · have hvalue : (if n < 0 then -(n.natAbs : Int) else n.natAbs) = n := by
        split <;> omega
      rw [readNumber_digits h hrest]
      simp only [decide_eq_true_eq, hvalue]
      rfl
  | real x =>
    obtain ⟨r, hr⟩ := Binary64.isFinite_iff.mp h
    obtain ⟨negative, m, e, hx, -, -⟩ := Binary64.decode_of_toRat? hr
    obtain ⟨s, q, hs, hreads, hdecode⟩ := Binary64.reads_shortest hx
    refine ⟨negative, s, ?_, hreads.head, fun hrest => ?_⟩
    · have hshortest : writtenNumber (.real x) = Binary64.shortest x := if_pos h
      rw [hshortest, hs]
      exact String.toList_ofList
    · obtain ⟨p, hp, rfl, hq, hreal⟩ := hreads
      have hpoint : ¬ (p.decimals.isEmpty && p.power.isNone) = true := by
        rw [Bool.and_eq_true, List.isEmpty_iff, Option.isNone_iff_eq_none]
        rintro ⟨hdecimals, hpower⟩
        rcases hreal with hreal | hreal
        · exact hreal hdecimals
        · rw [hpower] at hreal
          cases hreal
      have hvalue : Written.ofDecimal negative p.count p.scale = x :=
        Binary64.eq_of_decode (hdecode _ _ hq) hx
      rw [readNumber_text hp hrest, if_neg hpoint, hvalue]
      rfl

/-- **A number reads back**, exactly. -/
theorem readWord_writtenNumber {n : Number Float} (h : WritableNumber n) {rest : List Char}
    (hrest : EndsNumber rest) :
    readWord ((writtenNumber n).toList ++ rest) = .ok (.number n, rest) := by
  obtain ⟨negative, s, htext, hhead, hread⟩ := exists_writtenNumber h
  rw [htext, readWord_sign hhead, hread hrest]

/-- A number starts with a sign or a digit. -/
theorem head_writtenNumber {n : Number Float} (h : WritableNumber n) :
    ∃ c more, (writtenNumber n).toList = c :: more ∧ (c = '-' ∨ c.isDigit = true) := by
  obtain ⟨negative, s, htext, ⟨c, more, rfl, hc⟩, -⟩ := exists_writtenNumber h
  rw [htext]
  cases negative with
  | true => exact ⟨'-', c :: more, rfl, .inl rfl⟩
  | false => exact ⟨c, more, rfl, .inr hc⟩

end Json

end CanvasScript
