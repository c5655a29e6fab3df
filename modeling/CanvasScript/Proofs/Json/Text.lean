import CanvasScript.Json.Reader
import CanvasScript.Json.Writer
import Mathlib.Tactic.Ring

/-!
# Texts in JSON

Every text is written in ASCII and read back: a character stands for itself, or behind a backslash
for one of a few letters, or as one or two sixteen-bit units.

* `unit?_hexDigits`: a unit reads back from its four hexadecimal digits.
* `readText_writtenChar`: **a character reads back**, also one that takes two units.
* `readText_written`: **so does a text**, up to its closing quote.
-/

namespace CanvasScript

namespace Text

theorem hexValue?_hexDigit {n : Nat} (h : n < 16) : hexValue? (hexDigit n) = some n := by
  have hall : ∀ m : Fin 16, hexValue? (hexDigit m.1) = some m.1 := by decide
  exact hall ⟨n, h⟩

theorem length_hexDigits (width n : Nat) (rest : List Char) :
    (hexDigits width n rest).length = width + rest.length := by
  induction width generalizing n rest with
  | zero => exact (Nat.zero_add _).symm
  | succ width ih =>
    rw [hexDigits, ih, List.length_cons]
    omega

/-- The digits of a number are read as what they stand for, behind what was read before. -/
theorem foldlM_hexDigits (width n before : Nat) (rest : List Char) :
    (hexDigits width n rest).foldlM
        (fun value c => (hexValue? c).map (value * 16 + ·)) before =
      rest.foldlM (fun value c => (hexValue? c).map (value * 16 + ·))
        (before * 16 ^ width + n % 16 ^ width) := by
  induction width generalizing n rest with
  | zero => simp [hexDigits, Nat.mod_one]
  | succ width ih =>
    rw [hexDigits, ih, List.foldlM_cons, hexValue?_hexDigit (Nat.mod_lt _ (by decide))]
    show rest.foldlM _ _ = _
    congr 1
    rw [Nat.pow_succ', Nat.mod_mul]
    ring

theorem hexNumber?_hexDigits {width n : Nat} (h : n < 16 ^ width) :
    hexNumber? (hexDigits width n []) = some n := by
  unfold hexNumber?
  rw [foldlM_hexDigits, Nat.zero_mul, Nat.zero_add, Nat.mod_eq_of_lt h]
  rfl

end Text

namespace Json

open Text

/-! ## Units -/

/-- **A unit reads back** from its digits. -/
theorem unit?_hexDigits {unit : Nat} (h : unit < 0x10000) (rest : List Char) :
    unit? (hexDigits 4 unit [] ++ rest) = some (unit, rest) := by
  have hlength : (hexDigits 4 unit []).length = 4 := length_hexDigits 4 unit []
  unfold unit?
  rw [if_neg (by rw [List.length_append, hlength]; omega), List.take_left' hlength,
    List.drop_left' hlength, hexNumber?_hexDigits h]
  rfl

/-- A character is no half of a pair of units. -/
theorem toNat_range (c : Char) : c.toNat < 0xd800 ∨ 0xdfff < c.toNat ∧ c.toNat < 0x110000 := c.valid

/-- A character of one unit is that unit. -/
theorem joinUnits_toNat {c : Char} (h : c.toNat < 0x10000) (rest : List Char) :
    joinUnits c.toNat rest = (c, rest) := by
  have hrange := toNat_range c
  unfold joinUnits
  rw [if_neg (by omega), if_neg (by omega), Char.ofNat_toNat]

/-- A larger character is a pair of units. -/
theorem joinUnits_pair {c : Char} (h : 0x10000 ≤ c.toNat) (rest : List Char) :
    joinUnits (0xd800 + (c.toNat - 0x10000) / 1024)
        (unitText (0xdc00 + (c.toNat - 0x10000) % 1024) ++ rest) = (c, rest) := by
  have hrange := toNat_range c
  obtain ⟨low, hlow⟩ : ∃ low, 0xdc00 + (c.toNat - 0x10000) % 1024 = low := ⟨_, rfl⟩
  have hlength : (hexDigits 4 low []).length = 4 := length_hexDigits 4 low []
  have hunit : unit? ((hexDigits 4 low [] ++ rest).take 4) = some (low, []) := by
    have hread : unit? (hexDigits 4 low [] ++ []) = some (low, []) := unit?_hexDigits (by omega) []
    rwa [List.append_nil, ← List.take_left' hlength] at hread
  rw [hlow]
  unfold joinUnits unitText
  rw [if_pos (by omega)]
  simp only [List.cons_append, hunit]
  rw [if_pos (by omega), List.drop_left' hlength]
  have hvalue : 0x10000 + (0xd800 + (c.toNat - 0x10000) / 1024 - 0xd800) * 1024 +
      (low - 0xdc00) = c.toNat := by omega
  rw [hvalue, Char.ofNat_toNat]

/-! ## Characters and texts -/

/-- A unit behind a backslash is read with what follows it. -/
theorem readText_unitText {unit : Nat} (h : unit < 0x10000) (fuel : Nat) (done rest : List Char) :
    readText (fuel + 1) done (unitText unit ++ rest) =
      readText fuel ((joinUnits unit rest).1 :: done) (joinUnits unit rest).2 := by
  show readText (fuel + 1) done ('\\' :: 'u' :: (hexDigits 4 unit [] ++ rest)) = _
  rw [readText]
  simp only [unit?_hexDigits h]

/-- A letter behind a backslash is read as the character it stands for. -/
theorem readText_escaped {letter c : Char} (hletter : letter ≠ 'u') (h : escaped? letter = some c)
    (fuel : Nat) (done rest : List Char) :
    readText (fuel + 1) done ('\\' :: letter :: rest) = readText fuel (c :: done) rest := by
  rw [readText]
  · simp only [h]
  · exact hletter

/-- A plain character is read as itself. -/
theorem readText_plain {c : Char} (hquote : c ≠ '"') (hbackslash : c ≠ '\\')
    (hplain : 0x20 ≤ c.toNat) (fuel : Nat) (done rest : List Char) :
    readText (fuel + 1) done (c :: rest) = readText fuel (c :: done) rest := by
  rw [readText]
  · rw [if_neg (by omega)]
  · exact hquote
  · rintro rest' rfl
    exact absurd rfl hbackslash
  · rintro letter rest' rfl
    exact absurd rfl hbackslash

/-- **A character reads back.** -/
theorem readText_writtenChar (c : Char) (fuel : Nat) (done rest : List Char) :
    readText (fuel + 1) done (writtenChar c ++ rest) = readText fuel (c :: done) rest := by
  have hescaped {letter d : Char} (hletter : letter ≠ 'u') (hd : escaped? letter = some d)
      (hc : (c == d) = true) :
      readText (fuel + 1) done (['\\', letter] ++ rest) = readText fuel (c :: done) rest := by
    rw [beq_iff_eq.mp hc]
    exact readText_escaped hletter hd fuel done rest
  unfold writtenChar
  by_cases hquote : (c == '"') = true
  · rw [if_pos hquote]
    exact hescaped (by decide) rfl hquote
  rw [if_neg hquote]
  by_cases hbackslash : (c == '\\') = true
  · rw [if_pos hbackslash]
    exact hescaped (by decide) rfl hbackslash
  rw [if_neg hbackslash]
  by_cases hline : (c == '\n') = true
  · rw [if_pos hline]
    exact hescaped (by decide) rfl hline
  rw [if_neg hline]
  by_cases hreturn : (c == '\r') = true
  · rw [if_pos hreturn]
    exact hescaped (by decide) rfl hreturn
  rw [if_neg hreturn]
  by_cases htab : (c == '\t') = true
  · rw [if_pos htab]
    exact hescaped (by decide) rfl htab
  rw [if_neg htab]
  by_cases hfeed : (c == '\x0c') = true
  · rw [if_pos hfeed]
    exact hescaped (by decide) rfl hfeed
  rw [if_neg hfeed]
  by_cases hback : (c == '\x08') = true
  · rw [if_pos hback]
    exact hescaped (by decide) rfl hback
  rw [if_neg hback]
  dsimp only
  by_cases hplain : 0x20 ≤ c.toNat ∧ c.toNat < 0x7f
  · rw [if_pos hplain]
    exact readText_plain (fun h => hquote (beq_iff_eq.mpr h))
      (fun h => hbackslash (beq_iff_eq.mpr h)) hplain.1 fuel done rest
  rw [if_neg hplain]
  by_cases hsmall : c.toNat < 0x10000
  · rw [if_pos hsmall, readText_unitText hsmall, joinUnits_toNat hsmall]
  · have hrange := toNat_range c
    have hlarge : 0x10000 ≤ c.toNat := Nat.not_lt.mp hsmall
    rw [if_neg hsmall, List.append_assoc, readText_unitText (by omega), joinUnits_pair hlarge]

/-- **A text reads back** up to its closing quote, behind what was read before. -/
theorem readText_written {s : List Char} {fuel : Nat} (hfuel : s.length < fuel)
    (done rest : List Char) :
    readText fuel done (s.flatMap writtenChar ++ '"' :: rest) =
      .ok (String.ofList (done.reverse ++ s), rest) := by
  obtain ⟨fuel, rfl⟩ : ∃ more, fuel = more + 1 := ⟨fuel - 1, by omega⟩
  induction s generalizing fuel done with
  | nil => rw [List.append_nil]; rfl
  | cons c s ih =>
    obtain ⟨fuel, rfl⟩ : ∃ more, fuel = more + 1 := ⟨fuel - 1, by simp at hfuel; omega⟩
    rw [List.flatMap_cons, List.append_assoc, readText_writtenChar,
      ih (c :: done) fuel (by simpa using hfuel), List.reverse_cons, List.append_assoc]
    rfl

/-- A character that reads back is written somehow. -/
theorem writtenChar_ne_nil (c : Char) : writtenChar c ≠ [] := by
  intro hnil
  have hread := readText_writtenChar c 1 [] ['"']
  rw [hnil] at hread
  have hempty : (String.ofList [], ([] : List Char)) = (String.ofList [c], []) :=
    Except.ok.inj hread
  exact absurd (String.ofList_inj.mp (congrArg Prod.fst hempty)) (List.cons_ne_nil c []).symm

/-- Every character of a text takes some. -/
theorem length_le_written (s : List Char) : s.length ≤ (s.flatMap writtenChar).length := by
  induction s with
  | nil => exact Nat.zero_le _
  | cons c s ih =>
    have hc := List.length_pos_iff.mpr (writtenChar_ne_nil c)
    rw [List.flatMap_cons, List.length_append, List.length_cons]
    omega

/-- **A text between quotes reads back**, with as many characters as there are to read it. -/
theorem readText_writtenText (s : String) (rest : List Char) :
    ∃ tail, (writtenText s).toList ++ rest = '"' :: tail ∧
      readText (tail.length + 1) [] tail = .ok (s, rest) := by
  refine ⟨s.toList.flatMap writtenChar ++ '"' :: rest, ?_, ?_⟩
  · unfold writtenText
    rw [String.toList_ofList]
    exact congrArg (List.cons '"') (List.append_assoc _ _ _)
  · have hlength := length_le_written s.toList
    rw [readText_written (by rw [List.length_append]; omega), List.reverse_nil, List.nil_append,
      String.ofList_toList]

end Json

end CanvasScript
