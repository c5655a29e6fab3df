import CanvasScript.Decimal.Notation
import CanvasScript.Decimal.Numeral
import CanvasScript.Proofs.Decimal.Digits
import CanvasScript.Proofs.Text.Trim
import Mathlib.Data.Bool.AllAny
import Mathlib.Data.Rat.Cast.Defs
import Mathlib.Tactic.FieldSimp

/-!
# Written decimals read back

Integers and decimals are written with few characters (`writtenCharacters`), none of which a reader
changes or drops. So a numeral is read as its parts: a sign, digits, and perhaps a point or an
exponent.

* `Parts` are the parts of a decimal, and `Reads r s` says that some parts of the value `r` are
  written as `s`.

Results:
* `read?_integer`: **an integer reads back**, exactly.
* `reads_floating`: every notation of a decimal has parts of the same value.
* `Reads.read?`: **so a decimal reads back**.
-/

namespace CanvasScript.Decimal

open Text

/-! ## Characters of written numbers -/

/-- The characters that numbers are written with. -/
def writtenCharacters : List Char :=
  ['0', '1', '2', '3', '4', '5', '6', '7', '8', '9', '.', 'e', '+', '-']

/-- All the characters are those of written numbers. -/
def IsWritten (s : List Char) : Prop := ∀ c ∈ s, c ∈ writtenCharacters

theorem IsWritten.append {s t : List Char} (hs : IsWritten s) (ht : IsWritten t) :
    IsWritten (s ++ t) :=
  List.forall_mem_append.mpr ⟨hs, ht⟩

theorem IsWritten.cons {c : Char} {s : List Char} (hc : c ∈ writtenCharacters)
    (hs : IsWritten s) : IsWritten (c :: s) :=
  List.forall_mem_cons.mpr ⟨hc, hs⟩

theorem isWritten_nil : IsWritten [] := fun _ hc => nomatch hc

theorem isWritten_of_digits {s : List Char} (h : ∀ c ∈ s, c.isDigit = true) : IsWritten s := by
  have hdigit : ∀ m : Fin 10, digit m.1 ∈ writtenCharacters := by decide
  intro c hc
  have hrange : 48 ≤ c.toNat ∧ c.toNat ≤ 57 := by
    have hc := h c hc
    unfold Char.isDigit at hc
    rw [Bool.and_eq_true, decide_eq_true_eq, decide_eq_true_eq] at hc
    exact ⟨UInt32.le_iff_toNat_le.mp hc.1, UInt32.le_iff_toNat_le.mp hc.2⟩
  have hofNat : digit (c.toNat - 48) = c := by
    unfold digit
    rw [Nat.add_sub_cancel' hrange.1, Char.ofNat_toNat]
  rw [← hofNat]
  exact hdigit ⟨c.toNat - 48, by omega⟩

theorem all_padLeft (width : Nat) {s : List Char} (h : ∀ c ∈ s, c.isDigit = true) :
    ∀ c ∈ padLeft width s, c.isDigit = true := by
  refine List.forall_mem_append.mpr ⟨fun c hc => ?_, h⟩
  rw [List.eq_of_mem_replicate hc]
  rfl

theorem isWritten_exponent (e : Int) : IsWritten ('e' :: exponent e) := by
  have hdigits := isWritten_of_digits (all_padLeft 2 (isDigit_of_mem_digits (n := e.natAbs)))
  refine IsWritten.cons (by decide) (IsWritten.cons ?_ hdigits)
  split <;> decide

namespace Numeral

theorem joined_eq_self {s : List Char} (h : ∀ c ∈ s, c ≠ '_') {previous : Char}
    (hprevious : previous ≠ '_') : joined previous s = some s := by
  induction s generalizing previous with
  | nil => simp [joined, hprevious]
  | cons c s ih =>
    obtain ⟨hc, hs⟩ := List.forall_mem_cons.mp h
    simp [joined, hc, hprevious, ih hs hc]

/-- A written number is read as it stands. -/
theorem characters_eq_self {s : List Char} (h : IsWritten s) : characters s = some s := by
  have hplain : ∀ c ∈ writtenCharacters, plain c = c := List.all_iff_forall_prop.mp (by decide)
  have hblank : ∀ c ∈ writtenCharacters, isAsciiBlank c = false :=
    List.all_iff_forall_prop.mp (by decide)
  have hunderscore : ∀ c ∈ writtenCharacters, c ≠ '_' := List.all_iff_forall_prop.mp (by decide)
  unfold characters
  rw [List.map_congr_left fun c hc => hplain c (h c hc), List.map_id',
    trimBy_eq_self (bare_of_all fun c hc => hblank c (h c hc))]
  exact joined_eq_self (fun c hc => hunderscore c (h c hc)) (by decide)

/-! ## The parts of a numeral -/

theorem isDigit_eq_false_of_toLower {c : Char} (h : c.toLower = 'e') :
    c.isDigit = false ∧ c ≠ '.' := by
  unfold Char.toLower at h
  split at h
  · rename_i hupper
    have hle : 65 ≤ c.val.toNat := UInt32.le_iff_toNat_le.mp hupper.1
    constructor
    · unfold Char.isDigit
      rw [Bool.and_eq_false_iff]
      refine .inr (decide_eq_false fun hc => ?_)
      have : c.val.toNat ≤ 57 := UInt32.le_iff_toNat_le.mp hc
      omega
    · rintro rfl
      exact absurd hle (by decide)
  · rw [h]
    decide

/-- An exponent does not start with a digit nor a point. -/
theorem head_of_exponent? {s : List Char} {e : Int} (h : exponent? s = some e) :
    ∀ c ∈ s.head?, c.isDigit = false ∧ c ≠ '.' := by
  intro c hc
  cases s with
  | nil => cases hc
  | cons d s =>
    cases hc
    rw [exponent?] at h
    split at h
    · rename_i he
      exact isDigit_eq_false_of_toLower (beq_iff_eq.mp he)
    · cases h

theorem exponent?_sign (negative : Bool) {s : List Char} (hne : s ≠ [])
    (hdigits : ∀ c ∈ s, c.isDigit = true) :
    exponent? ('e' :: (if negative then '-' else '+') :: s) =
      some (if negative then -(value s : Int) else value s) := by
  have hguard : ¬ (s.isEmpty || !s.all Char.isDigit) = true := by
    rw [List.all_eq_true.mpr hdigits, List.isEmpty_eq_false_iff.mpr hne]
    exact Bool.false_ne_true
  cases negative with
  | true => exact if_neg hguard
  | false => exact if_neg hguard

/-- **An exponent reads back.** -/
theorem exponent?_exponent (e : Int) : exponent? ('e' :: exponent e) = some e := by
  have hne : padLeft 2 (digits e.natAbs) ≠ [] := fun h =>
    digits_ne_nil e.natAbs (List.append_eq_nil_iff.mp h).2
  have hread := exponent?_sign (decide (e < 0)) hne (all_padLeft 2 isDigit_of_mem_digits)
  simp only [decide_eq_true_eq, value_padLeft, value_digits] at hread
  refine hread.trans (congrArg some ?_)
  split <;> omega

theorem unsigned_whole (negative : Bool) {whole : List Char}
    (hwhole : ∀ c ∈ whole, c.isDigit = true) (hne : whole ≠ []) (tail : List Char) {e : Int}
    (htail : exponent? tail = some e) :
    unsigned negative (whole ++ tail) = some (.finite negative (value whole) e) := by
  have hstop : ∀ c ∈ tail.head?, c.isDigit = false := fun c hc => (head_of_exponent? htail c hc).1
  have hguard : ¬ (whole.isEmpty && [].isEmpty (α := Char)) = true := by
    rw [List.isEmpty_eq_false_iff.mpr hne]
    exact Bool.false_ne_true
  unfold unsigned
  simp only [takeWhile_append_stop hwhole hstop, dropWhile_append_stop hwhole hstop]
  split
  · exact absurd rfl (head_of_exponent? htail '.' rfl).2
  · rw [if_neg hguard, htail, List.append_nil]
    exact congrArg (fun e => some (finite negative (value whole) e)) (Int.sub_zero e)

theorem unsigned_point (negative : Bool) {whole decimals tail : List Char}
    (hwhole : ∀ c ∈ whole, c.isDigit = true) (hne : whole ≠ [])
    (hdecimals : ∀ c ∈ decimals, c.isDigit = true) {e : Int} (htail : exponent? tail = some e) :
    unsigned negative (whole ++ '.' :: (decimals ++ tail)) =
      some (.finite negative (value (whole ++ decimals)) (e - decimals.length)) := by
  have hstop : ∀ c ∈ tail.head?, c.isDigit = false := fun c hc => (head_of_exponent? htail c hc).1
  have hpoint : ∀ c ∈ ('.' :: (decimals ++ tail)).head?, c.isDigit = false := by
    rintro c ⟨⟩
    rfl
  unfold unsigned
  simp only [takeWhile_append_stop hwhole hpoint, dropWhile_append_stop hwhole hpoint,
    takeWhile_append_stop hdecimals hstop, dropWhile_append_stop hdecimals hstop, htail]
  rw [if_neg (by simp [hne])]
  rfl

/-- A sign in front, if the number is negative. -/
theorem read?_sign (negative : Bool) {c : Char} {s : List Char} (hc : c.isDigit = true)
    (hs : IsWritten (c :: s)) :
    read? (if negative then '-' :: c :: s else c :: s) = unsigned negative (c :: s) := by
  have hhead : ∀ c ∈ writtenCharacters, c.isDigit = true →
      c ≠ '-' ∧ c ≠ '+' ∧ c.toLower ≠ 'i' ∧ c.toLower ≠ 'n' :=
    List.all_iff_forall_prop.mp (by decide)
  obtain ⟨hminus, hplus, hi, hn⟩ := hhead c (hs c (List.mem_cons_self ..)) hc
  have hwritten : IsWritten (if negative then '-' :: c :: s else c :: s) := by
    split
    · exact hs.cons (by decide)
    · exact hs
  have hsigned : signed (if negative then '-' :: c :: s else c :: s) = (negative, c :: s) := by
    cases negative with
    | true => rfl
    | false => exact signed.eq_3 (c :: s) (by simp [hminus]) (by simp [hplus])
  unfold read?
  rw [characters_eq_self hwritten, Option.bind_some, hsigned]
  simp [hi, hn]

end Numeral

/-! ## Integers and decimals -/

theorem isWritten_integer (n : Int) : IsWritten (integer n) ∧ integer n ≠ [] := by
  have hdigits := isWritten_of_digits (isDigit_of_mem_digits (n := n.natAbs))
  unfold integer
  split
  · exact ⟨hdigits.cons (by decide), List.cons_ne_nil _ _⟩
  · exact ⟨hdigits, digits_ne_nil _⟩

/-- **An integer reads back.** -/
theorem read?_integer (n : Int) :
    Numeral.read? (integer n) = some (.finite (decide (n < 0)) n.natAbs 0) := by
  obtain ⟨c, s, hs⟩ := List.exists_cons_of_ne_nil (digits_ne_nil n.natAbs)
  have hdigits := isDigit_of_mem_digits (n := n.natAbs)
  have hwritten := isWritten_of_digits hdigits
  have hvalue := value_digits n.natAbs
  have hwhole := Numeral.unsigned_whole (decide (n < 0)) hdigits (digits_ne_nil n.natAbs) [] rfl
  rw [List.append_nil] at hwhole
  rw [hs] at hdigits hwritten hwhole hvalue
  have hread := Numeral.read?_sign (decide (n < 0)) (hdigits c (List.mem_cons_self ..)) hwritten
  rw [hwhole, hvalue] at hread
  unfold integer
  rw [hs]
  simpa using hread

/-! ## Decimals by their parts -/

/-- A decimal by its parts: digits, digits behind a point, and an exponent. -/
structure Parts where
  whole : List Char
  decimals : List Char
  power : Option Int

namespace Parts

/-- The characters of the exponent. -/
def powerText (p : Parts) : List Char :=
  match p.power with
  | none => []
  | some e => 'e' :: exponent e

/-- The characters behind the digits in front. -/
def tail (p : Parts) : List Char :=
  if p.decimals = [] then p.powerText else '.' :: (p.decimals ++ p.powerText)

/-- The characters of the decimal. -/
def text (p : Parts) : List Char := p.whole ++ p.tail

/-- The natural that all digits write. -/
def count (p : Parts) : Nat := value (p.whole ++ p.decimals)

/-- The power of ten of the last digit. -/
def scale (p : Parts) : Int := p.power.getD 0 - p.decimals.length

/-- The parts are digits, and a zero stands in front only if no other digit follows before the
point. -/
structure IsProper (p : Parts) : Prop where
  whole : ∀ c ∈ p.whole, c.isDigit = true
  decimals : ∀ c ∈ p.decimals, c.isDigit = true
  front : ∃ c rest, p.whole = c :: rest ∧ (c = '0' → rest = [])

variable {p : Parts}

theorem isWritten_powerText (p : Parts) : IsWritten p.powerText := by
  unfold powerText
  split
  · exact isWritten_nil
  · exact isWritten_exponent _

theorem exponent?_powerText (p : Parts) :
    Numeral.exponent? p.powerText = some (p.power.getD 0) := by
  unfold powerText
  split
  · rename_i hpower
    rw [hpower]
    rfl
  · rename_i hpower
    rw [hpower]
    exact Numeral.exponent?_exponent _

theorem IsProper.ne_nil (h : p.IsProper) : p.whole ≠ [] := by
  obtain ⟨c, rest, hwhole, -⟩ := h.front
  exact hwhole ▸ List.cons_ne_nil c rest

theorem IsProper.isWritten_text (h : p.IsProper) : IsWritten p.text := by
  refine (isWritten_of_digits h.whole).append ?_
  unfold tail
  split
  · exact p.isWritten_powerText
  · exact IsWritten.cons (by decide) ((isWritten_of_digits h.decimals).append p.isWritten_powerText)

/-- **A decimal is read as its parts.** -/
theorem IsProper.unsigned_text (h : p.IsProper) (negative : Bool) :
    Numeral.unsigned negative p.text = some (.finite negative p.count p.scale) := by
  unfold text tail
  split
  · rename_i hdecimals
    rw [Numeral.unsigned_whole negative h.whole h.ne_nil _ p.exponent?_powerText]
    unfold count scale
    rw [hdecimals, List.append_nil, List.length_nil, Nat.cast_zero, Int.sub_zero]
  · exact Numeral.unsigned_point negative h.whole h.ne_nil h.decimals p.exponent?_powerText

end Parts

/-- The characters are a decimal of a value, with a point or an exponent. -/
def Reads (r : Rat) (s : List Char) : Prop :=
  ∃ p : Parts, p.IsProper ∧ p.text = s ∧ (p.count : Rat) * (10 : Rat) ^ p.scale = r ∧
    (p.decimals ≠ [] ∨ p.power.isSome = true)

namespace Reads

variable {r : Rat} {s : List Char}

theorem written (h : Reads r s) : IsWritten s := by
  obtain ⟨p, hp, rfl, -⟩ := h
  exact hp.isWritten_text

theorem head (h : Reads r s) : ∃ c rest, s = c :: rest ∧ c.isDigit = true := by
  obtain ⟨p, hp, rfl, -⟩ := h
  obtain ⟨c, rest, hwhole, -⟩ := hp.front
  refine ⟨c, rest ++ p.tail, ?_, hp.whole c (hwhole ▸ List.mem_cons_self ..)⟩
  unfold Parts.text
  rw [hwhole]
  rfl

/-- **A decimal reads back**, with a sign in front if it is negative. -/
theorem read? (h : Reads r s) (negative : Bool) :
    ∃ d k, Numeral.read? (if negative then '-' :: s else s) = some (.finite negative d k) ∧
      (d : Rat) * (10 : Rat) ^ k = r := by
  obtain ⟨c, rest, rfl, hc⟩ := h.head
  rw [Numeral.read?_sign negative hc h.written]
  obtain ⟨p, hp, htext, hr, -⟩ := h
  exact ⟨_, _, htext ▸ hp.unsigned_text negative, hr⟩

end Reads

/-- Before a point stands a zero alone, or the digits that there are. -/
theorem front_padLeft (places : Nat) {c : Char} (rest : List Char) (hc : c ≠ '0') :
    ∃ d more, (padLeft (places + 1) (c :: rest)).take
      ((padLeft (places + 1) (c :: rest)).length - places) = d :: more ∧ (d = '0' → more = []) := by
  rcases Nat.lt_or_ge rest.length places with hshort | hlong
  · obtain ⟨zeros, hzeros⟩ : ∃ zeros, places + 1 - (c :: rest).length = zeros + 1 :=
      ⟨places - rest.length - 1, by rw [List.length_cons]; omega⟩
    have hpadded : padLeft (places + 1) (c :: rest) =
        '0' :: (List.replicate zeros '0' ++ c :: rest) := by
      unfold padLeft
      rw [hzeros]
      rfl
    have hlength : (padLeft (places + 1) (c :: rest)).length - places = 1 := by
      rw [List.length_cons] at hzeros
      rw [hpadded, List.length_cons, List.length_append, List.length_replicate, List.length_cons]
      omega
    refine ⟨'0', [], ?_, fun _ => rfl⟩
    rw [hlength, hpadded]
    rfl
  · have hpadded : padLeft (places + 1) (c :: rest) = c :: rest := by
      unfold padLeft
      rw [List.length_cons, Nat.sub_eq_zero_of_le (by omega)]
      rfl
    refine ⟨c, rest.take (rest.length - places), ?_, fun h => absurd h hc⟩
    rw [hpadded, List.length_cons, Nat.succ_sub hlong]
    rfl

/-- Digits with a point before the last of them. -/
theorem reads_pointed {places : Nat} (hplaces : places ≠ 0) {c : Char} {rest : List Char}
    (hc : c ≠ '0') (hs : ∀ d ∈ c :: rest, d.isDigit = true) :
    Reads ((value (c :: rest) : Rat) * (10 : Rat) ^ (-(places : Int)))
      (pointed places (c :: rest)) := by
  have hpadded := all_padLeft (places + 1) hs
  have hvalue := value_padLeft (places + 1) (c :: rest)
  have hlength : places + 1 ≤ (padLeft (places + 1) (c :: rest)).length := by
    unfold padLeft
    rw [List.length_append, List.length_replicate]
    omega
  have hfront := front_padLeft places rest hc
  unfold pointed
  simp only [if_neg hplaces]
  generalize padLeft (places + 1) (c :: rest) = t at hpadded hvalue hlength hfront ⊢
  have hdecimals : t.drop (t.length - places) ≠ [] := by
    rw [Ne, List.drop_eq_nil_iff]
    omega
  refine ⟨⟨t.take (t.length - places), t.drop (t.length - places), none⟩,
    ⟨fun c hc => hpadded c (List.mem_of_mem_take hc),
      fun c hc => hpadded c (List.mem_of_mem_drop hc), hfront⟩, ?_, ?_, .inl hdecimals⟩
  · unfold Parts.text Parts.tail Parts.powerText
    simp only [if_neg hdecimals, List.append_nil]
  · unfold Parts.count Parts.scale
    dsimp only [Option.getD_none]
    rw [List.take_append_drop, hvalue, List.length_drop]
    congr 2
    omega

/-- **Every notation of a decimal has parts** of the same value. -/
theorem reads_floating {n : Nat} (hn : 0 < n) (e : Int) :
    Reads ((n : Rat) * (10 : Rat) ^ e) (floating n e) := by
  obtain ⟨c, rest, hdigits, hc⟩ := head_digits hn
  have hall := isDigit_of_mem_digits (n := n)
  have hvalue := value_digits n
  unfold floating
  rw [hdigits] at hall hvalue ⊢
  obtain ⟨hdigit, hrest⟩ := List.forall_mem_cons.mp hall
  dsimp only
  generalize hfirst : ((c :: rest).length : Int) + e - 1 = first
  split
  · split
    · rename_i he
      have hzeros : ∀ d ∈ List.replicate e.toNat '0', d.isDigit = true := fun d hd => by
        rw [List.eq_of_mem_replicate hd]
        rfl
      refine ⟨⟨c :: rest ++ List.replicate e.toNat '0', ['0'], none⟩,
        ⟨List.forall_mem_append.mpr ⟨hall, hzeros⟩, List.forall_mem_singleton.mpr (by decide),
          c, rest ++ List.replicate e.toNat '0', rfl, fun h => absurd h hc⟩,
        rfl, ?_, .inl (List.cons_ne_nil _ _)⟩
      unfold Parts.count Parts.scale
      dsimp only [Option.getD_none]
      rw [value_append, value_append, value_zeros, hvalue, List.length_replicate]
      have he : (10 : Rat) ^ e = (10 : Rat) ^ e.toNat := by
        rw [← zpow_natCast, Int.toNat_of_nonneg he]
      rw [he]
      simp [value]
    · rename_i he
      have hplaces : e.natAbs ≠ 0 := by omega
      have hpointed := reads_pointed hplaces hc hall
      rw [hvalue, show -(e.natAbs : Int) = e by omega] at hpointed
      exact hpointed
  · have hsingle : ∀ d ∈ [c], d.isDigit = true := List.forall_mem_singleton.mpr hdigit
    split
    · rename_i hrest'
      cases hrest'
      refine ⟨⟨[c], [], some first⟩,
        ⟨hsingle, List.forall_mem_nil _, c, [], rfl, fun _ => rfl⟩, rfl, ?_, .inr rfl⟩
      unfold Parts.count Parts.scale
      dsimp only [Option.getD_some]
      rw [List.append_nil, hvalue, ← hfirst]
      congr 2
      simp
    · rename_i hdecimals hcons
      cases hcons
      refine ⟨⟨[c], rest, some first⟩, ⟨hsingle, hrest, c, [], rfl, fun _ => rfl⟩, ?_, ?_, .inr rfl⟩
      · unfold Parts.text Parts.tail
        rw [if_neg hdecimals]
        rfl
      · unfold Parts.count Parts.scale
        dsimp only [Option.getD_some]
        rw [List.singleton_append, hvalue, ← hfirst, List.length_cons]
        congr 2
        omega
    · rename_i hnil
      cases hnil

end CanvasScript.Decimal
