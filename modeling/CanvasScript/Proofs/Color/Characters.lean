import CanvasScript.Color.Style
import CanvasScript.Proofs.Except
import Mathlib.Data.Bool.AllAny
import Mathlib.Data.List.Basic

/-!
# The characters of styles

A style that denotes a colour holds spaces and visible characters only: no other blanks inside, and
no quotes. So `format_command_line` can put it between quotes (`visible_of_isStyle`).
-/

namespace CanvasScript.Rgba

open Text

/-- The character is neither a blank nor a quote. -/
def IsVisible (c : Char) : Prop := isBlank c = false ∧ c ≠ '"' ∧ c ≠ '\''

instance (c : Char) : Decidable (IsVisible c) := inferInstanceAs (Decidable (_ ∧ _ ∧ _))

/-! ## Ranges of characters -/

/-- A range of visible characters, by its first code point and its length. -/
theorem isVisible_of_range (start length : Nat)
    (hall : ∀ k < length, IsVisible (Char.ofNat (start + k))) {c : Char} (hl : start ≤ c.toNat)
    (hu : c.toNat < start + length) : IsVisible c := by
  have h := hall (c.toNat - start) (by omega)
  rwa [Nat.add_sub_cancel' hl, Char.ofNat_toNat] at h

theorem isVisible_of_small {c : Char} (h : IsVisible (small c)) : IsVisible c := by
  unfold small at h
  split at h
  · rename_i hkelvin
    rw [beq_iff_eq.mp hkelvin]
    decide
  · unfold Char.toLower at h
    split at h
    · rename_i hupper
      have hl : 65 ≤ c.toNat := UInt32.le_iff_toNat_le.mp hupper.1
      have hu : c.toNat ≤ 90 := UInt32.le_iff_toNat_le.mp hupper.2
      exact isVisible_of_range 65 26 (by decide) hl (by omega)
    · exact h

theorem isVisible_of_isDecimalDigit {c : Char} (h : isDecimalDigit c = true) : IsVisible c := by
  have hzeros : ∀ start ∈ zeroDigits, ∀ k < 10, IsVisible (Char.ofNat (start + k)) := by
    decide +kernel
  unfold isDecimalDigit digitValue? at h
  simp only at h
  split at h
  · split at h
    · exact isVisible_of_range 48 10 (by decide) (by omega) (by omega)
    · cases h
  · rw [Option.isSome_map] at h
    obtain ⟨start, hstart⟩ := Option.isSome_iff_exists.mp h
    have hrange := List.find?_some hstart
    rw [Bool.and_eq_true, decide_eq_true_eq, decide_eq_true_eq] at hrange
    exact isVisible_of_range start 10 (hzeros start (List.mem_of_find?_eq_some hstart)) hrange.1
      hrange.2

theorem isVisible_of_hexValue? {c : Char} {n : Nat} (h : hexValue? c = some n) : IsVisible c := by
  unfold hexValue? at h
  simp only at h
  split at h
  · exact isVisible_of_range 48 10 (by decide) (by omega) (by omega)
  · split at h
    · exact isVisible_of_range 97 6 (by decide) (by omega) (by omega)
    · split at h
      · exact isVisible_of_range 65 6 (by decide) (by omega) (by omega)
      · cases h

/-! ## Names, functions and hashes -/

theorem visible_of_named {name : String} {color : Rgba} (h : named? name = some color) :
    ∀ c ∈ name.toList, IsVisible c := by
  have hall : ∀ entry ∈ names, entry.1.toList.all Char.isLower = true := by decide +kernel
  obtain ⟨l₁, l₂, hmem, -⟩ := List.lookup_eq_some_iff.mp h
  have hname : (name, color) ∈ names := by
    rw [hmem]
    exact List.mem_append_right _ (List.mem_cons_self ..)
  intro c hc
  have hlower := List.all_eq_true.mp (hall _ hname) c hc
  unfold Char.isLower at hlower
  rw [Bool.and_eq_true, decide_eq_true_eq, decide_eq_true_eq] at hlower
  have hl : 97 ≤ c.toNat := UInt32.le_iff_toNat_le.mp hlower.1
  have hu : c.toNat ≤ 122 := UInt32.le_iff_toNat_le.mp hlower.2
  exact isVisible_of_range 97 26 (by decide) hl (by omega)

/-- What is cut into parts is made of them and of separators. -/
theorem forall_mem_of_parts {separator : Char} {s : List Char} {P : Char → Prop}
    (hseparator : P separator) (h : ∀ part ∈ parts separator s, ∀ c ∈ part, P c) :
    ∀ c ∈ s, P c := by
  induction s with
  | nil => exact fun _ hc => nomatch hc
  | cons d s ih =>
    unfold parts at h
    split at h
    · rename_i hd
      refine List.forall_mem_cons.mpr ⟨beq_iff_eq.mp hd ▸ hseparator, ih ?_⟩
      exact (List.forall_mem_cons.mp h).2
    · split at h
      · rename_i part more hparts
        obtain ⟨hpart, hmore⟩ := List.forall_mem_cons.mp h
        obtain ⟨hd, hpart⟩ := List.forall_mem_cons.mp hpart
        rw [hparts] at ih
        exact List.forall_mem_cons.mpr ⟨hd, ih (List.forall_mem_cons.mpr ⟨hpart, hmore⟩)⟩
      · rename_i hparts
        rw [hparts] at ih
        obtain ⟨hd, -⟩ := List.forall_mem_cons.mp h
        exact List.forall_mem_cons.mpr
          ⟨(List.forall_mem_cons.mp hd).1, ih fun _ hpart => nomatch hpart⟩

theorem visible_of_arguments {function s : List Char} {inner : List (List Char)}
    (h : arguments? function s = some inner) (hfunction : ∀ c ∈ function, IsVisible c)
    (hinner : ∀ part ∈ inner, ∀ c ∈ part, IsVisible c) : ∀ c ∈ s, IsVisible c := by
  unfold arguments? at h
  split at h
  · rename_i hform
    cases h
    obtain ⟨hfront, hlast⟩ := (Bool.and_eq_true _ _).mp hform
    obtain ⟨rest, rfl⟩ := List.isPrefixOf_iff_prefix.mp hfront
    have hdrop : (function ++ ['('] ++ rest).drop (function.length + 1) = rest := by
      rw [List.append_assoc, List.drop_append]
      simp
    rw [hdrop] at hinner
    refine List.forall_mem_append.mpr ⟨List.forall_mem_append.mpr
      ⟨hfunction, List.forall_mem_singleton.mpr (by decide)⟩, ?_⟩
    have hbody := forall_mem_of_parts (by decide) hinner
    rcases List.eq_nil_or_concat' rest with rfl | ⟨body, last, rfl⟩
    · exact fun _ hc => nomatch hc
    · rw [List.dropLast_concat] at hbody
      refine List.forall_mem_append.mpr ⟨hbody, List.forall_mem_singleton.mpr ?_⟩
      rw [← List.append_assoc, List.getLast?_concat, beq_iff_eq] at hlast
      rw [Option.some.inj hlast]
      decide
  · cases h

theorem visible_of_isDigits {s : List Char} (h : isDigits s = true) : ∀ c ∈ s, IsVisible c :=
  fun c hc => isVisible_of_isDecimalDigit (List.all_eq_true.mp ((Bool.and_eq_true _ _).mp h).2 c hc)

theorem visible_of_alpha {s : List Char} {n : Int} (h : alpha? s = some n) :
    ∀ c ∈ s, IsVisible c := by
  have hwhole : ∀ c ∈ s.takeWhile isDecimalDigit, IsVisible c := fun c hc =>
    isVisible_of_isDecimalDigit ((List.all_eq_true.mp List.all_takeWhile c hc))
  rw [← List.takeWhile_append_dropWhile (p := isDecimalDigit) (l := s)]
  refine List.forall_mem_append.mpr ⟨hwhole, ?_⟩
  unfold alpha? at h
  simp only at h
  split at h
  · rename_i hrest
    rw [hrest]
    exact fun _ hc => nomatch hc
  · rename_i point decimals hrest
    rw [hrest]
    split at h
    · rename_i hform
      rw [Bool.and_eq_true, Bool.and_eq_true, beq_iff_eq] at hform
      obtain ⟨⟨rfl, hdecimals⟩, -⟩ := hform
      refine List.forall_mem_cons.mpr ⟨by decide, fun c hc => ?_⟩
      exact isVisible_of_isDecimalDigit (List.all_eq_true.mp hdecimals c hc)
    · cases h

theorem visible_of_function {s : List Char} {result : Except ColorError Rgba}
    (h : ofFunction? s = some result) : ∀ c ∈ s, IsVisible c := by
  unfold ofFunction? at h
  split at h
  · rename_i red green blue hparts
    split at h
    · rename_i hdigits
      rw [Bool.and_eq_true, Bool.and_eq_true] at hdigits
      refine visible_of_arguments hparts (List.all_iff_forall_prop.mp (by decide)) ?_
      simp only [List.forall_mem_cons]
      exact ⟨visible_of_isDigits hdigits.1.1, visible_of_isDigits hdigits.1.2,
        visible_of_isDigits hdigits.2, fun _ hpart => nomatch hpart⟩
    · cases h
  · rename_i red green blue fraction hparts _
    split at h
    · rename_i hdigits
      obtain ⟨alpha, halpha, -⟩ := Option.map_eq_some_iff.mp h
      rw [Bool.and_eq_true, Bool.and_eq_true] at hdigits
      refine visible_of_arguments hparts (List.all_iff_forall_prop.mp (by decide)) ?_
      simp only [List.forall_mem_cons]
      exact ⟨visible_of_isDigits hdigits.1.1, visible_of_isDigits hdigits.1.2,
        visible_of_isDigits hdigits.2, visible_of_alpha halpha, fun _ hpart => nomatch hpart⟩
    · cases h
  · cases h

theorem visible_of_hexDigits {s : List Char} {values : List Nat}
    (h : s.mapM hexValue? = some values) : ∀ c ∈ s, IsVisible c := by
  induction s generalizing values with
  | nil => exact fun _ hc => nomatch hc
  | cons c s ih =>
    rw [List.mapM_cons] at h
    obtain ⟨d, hd, h⟩ := Option.bind_eq_some_iff.mp h
    obtain ⟨rest, hrest, -⟩ := Option.bind_eq_some_iff.mp h
    exact List.forall_mem_cons.mpr ⟨isVisible_of_hexValue? hd, ih hrest⟩

theorem visible_of_hash {s : List Char} {color : Rgba} (h : ofHash? s = some color) :
    ∀ c ∈ s, IsVisible c := by
  unfold ofHash? at h
  split at h
  · rename_i digits
    have hdigits : ∃ values, digits.mapM hexValue? = some values := by
      split at h
      · exact ⟨_, by assumption⟩
      · exact ⟨_, by assumption⟩
      · exact ⟨_, by assumption⟩
      · cases h
    obtain ⟨values, hvalues⟩ := hdigits
    exact List.forall_mem_cons.mpr ⟨by decide, visible_of_hexDigits hvalues⟩
  · cases h

theorem visible_of_essence {style : String} (h : isStyle style = true) :
    ∀ c ∈ essence style, IsVisible c := by
  obtain ⟨color, h⟩ := isOk_iff.mp h
  unfold ofStyle at h
  simp only at h
  split at h
  · cases h
  · split at h
    · rename_i hword
      rw [← String.toList_ofList (l := essence style), hword]
      exact List.all_iff_forall_prop.mp (by decide)
    · split at h
      · rename_i hname
        have := visible_of_named hname
        rwa [String.toList_ofList] at this
      · split at h
        · rename_i hfunction
          exact visible_of_function hfunction
        · split at h
          · rename_i hhash
            exact visible_of_hash hhash
          · cases h

/-- **A style holds spaces and visible characters only**, up to the blanks around it. -/
theorem visible_of_isStyle {style : String} (h : isStyle style = true) :
    ∀ c ∈ trim style.toList, c = ' ' ∨ IsVisible c := by
  intro c hc
  by_cases hspace : c = ' '
  · exact .inl hspace
  · refine .inr (isVisible_of_small (visible_of_essence h _ (List.mem_map_of_mem ?_)))
    exact List.mem_filter.mpr ⟨hc, bne_iff_ne.mpr hspace⟩

end CanvasScript.Rgba
