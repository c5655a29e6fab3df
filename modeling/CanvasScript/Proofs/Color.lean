import CanvasScript.Color.Style
import CanvasScript.Proofs.Except
import CanvasScript.Proofs.Rounding
import CanvasScript.Proofs.Scalar.Laws

/-!
# Channels of colours

What `parse_color` gives and `fade_alpha` keeps, over any scalars.

* `inRange_ofStyle`: **every channel of a colour that a style denotes is in `0 … 255`**.
* `fade_one`: **a colour that is faded all the way is the colour**, as far as scalars count.
-/

namespace CanvasScript.Rgba

/-- The channels are in `0 … 255`. -/
structure InRange (c : Rgba) : Prop where
  red : 0 ≤ c.red ∧ c.red ≤ 255
  green : 0 ≤ c.green ∧ c.green ≤ 255
  blue : 0 ≤ c.blue ∧ c.blue ≤ 255
  alpha : 0 ≤ c.alpha ∧ c.alpha ≤ 255

instance (c : Rgba) : Decidable c.InRange :=
  decidable_of_iff ((0 ≤ c.red ∧ c.red ≤ 255) ∧ (0 ≤ c.green ∧ c.green ≤ 255) ∧
      (0 ≤ c.blue ∧ c.blue ≤ 255) ∧ (0 ≤ c.alpha ∧ c.alpha ≤ 255))
    ⟨fun ⟨hr, hg, hb, ha⟩ => ⟨hr, hg, hb, ha⟩, fun ⟨hr, hg, hb, ha⟩ => ⟨hr, hg, hb, ha⟩⟩

theorem inRange_solid {r g b : Int} (hr : 0 ≤ r ∧ r ≤ 255) (hg : 0 ≤ g ∧ g ≤ 255)
    (hb : 0 ≤ b ∧ b ≤ 255) : (solid r g b).InRange :=
  ⟨hr, hg, hb, (by decide : (0 : Int) ≤ 255), le_refl 255⟩

theorem inRange_names : ∀ entry ∈ names, entry.2.InRange := by decide +kernel

theorem inRange_named {name : String} {c : Rgba} (h : named? name = some c) : c.InRange := by
  obtain ⟨l₁, l₂, hmem, -⟩ := List.lookup_eq_some_iff.mp h
  refine inRange_names (name, c) ?_
  rw [hmem]
  exact List.mem_append_right _ (List.mem_cons_self ..)

/-! ## Channels in functions -/

theorem channel_mem {s : List Char} {n : Int} (h : channel s = .ok n) : 0 ≤ n ∧ n ≤ 255 := by
  unfold channel at h
  split at h
  · cases h
  · cases h
    exact clampChannel_mem _

/-- A fraction below one gives a channel, however it is rounded. -/
theorem alphaChannel_mem (digits places : Nat) :
    0 ≤ alphaChannel digits places ∧ alphaChannel digits places ≤ 255 := by
  unfold alphaChannel
  split
  · decide
  · rename_i h
    have hx0 : (0 : Rat) ≤ mkRat digits (Rounding.pow10 places) := by
      rw [Rat.mkRat_eq_div]
      positivity
    have hx1 : mkRat digits (Rounding.pow10 places) ≤ (1 : Nat) := by
      have hpos : (0 : Rat) < Rounding.pow10 places := by exact_mod_cast Rounding.pow10_pos places
      have hle : (digits : Rat) ≤ Rounding.pow10 places := by exact_mod_cast (not_le.mp h).le
      rw [Rat.mkRat_eq_div, div_le_iff₀ (by exact_mod_cast hpos), Nat.cast_one, one_mul]
      exact_mod_cast hle
    have hf0 := Rounding.nearest_nonneg 53 hx0
    have hf1 := Rounding.nearest_le 53 hx0 (by decide) hx1
    set f := Rounding.nearest 53 (mkRat digits (Rounding.pow10 places)) with hf
    rw [Nat.cast_one] at hf1
    have hy0 : 0 ≤ f * 255 := by positivity
    have hy1 : f * 255 ≤ (255 : Nat) := by
      push_cast
      linarith
    have hn0 := Rounding.nearest_nonneg 53 hy0
    have hn1 := Rounding.nearest_le 53 hy0 (by decide) hy1
    refine ⟨Rounding.le_halfEven ?_, Rounding.halfEven_le ?_⟩
    · exact_mod_cast hn0
    · exact_mod_cast hn1

/-- The alpha channel that a fraction writes. -/
theorem alpha_mem {s : List Char} {n : Int} (h : alpha? s = some n) : 0 ≤ n ∧ n ≤ 255 := by
  unfold alpha? at h
  simp only at h
  split at h
  · split at h
    · cases h
    · cases h
      exact alphaChannel_mem _ _
  · split at h
    · cases h
      exact alphaChannel_mem _ _
    · cases h

theorem inRange_ofFunction {s : List Char} {c : Rgba} (h : ofFunction? s = some (.ok c)) :
    c.InRange := by
  unfold ofFunction? at h
  split at h
  · split at h
    · obtain ⟨r, hr, h⟩ := bind_eq_ok.mp (Option.some.inj h)
      obtain ⟨g, hg, h⟩ := bind_eq_ok.mp h
      obtain ⟨b, hb, h⟩ := bind_eq_ok.mp h
      cases h
      exact inRange_solid (channel_mem hr) (channel_mem hg) (channel_mem hb)
    · cases h
  · split at h
    · obtain ⟨a, ha, h⟩ := Option.map_eq_some_iff.mp h
      obtain ⟨r, hr, h⟩ := bind_eq_ok.mp h
      obtain ⟨g, hg, h⟩ := bind_eq_ok.mp h
      obtain ⟨b, hb, h⟩ := bind_eq_ok.mp h
      cases h
      exact ⟨channel_mem hr, channel_mem hg, channel_mem hb, alpha_mem ha⟩
    · cases h
  · cases h

/-! ## Hexadecimal channels -/

theorem hexValue?_lt {c : Char} {n : Nat} (h : Text.hexValue? c = some n) : n < 16 := by
  unfold Text.hexValue? at h
  simp only at h
  split at h
  · cases h
    omega
  · split at h
    · cases h
      omega
    · split at h
      · cases h
        omega
      · cases h

theorem hexValues_lt {s : List Char} {values : List Nat} (h : s.mapM Text.hexValue? = some values) :
    ∀ n ∈ values, n < 16 := by
  induction s generalizing values with
  | nil =>
    cases h
    intro n hn
    cases hn
  | cons c s ih =>
    rw [List.mapM_cons] at h
    obtain ⟨d, hd, h⟩ := Option.bind_eq_some_iff.mp h
    obtain ⟨rest, hrest, h⟩ := Option.bind_eq_some_iff.mp h
    cases h
    intro n hn
    rcases List.mem_cons.mp hn with rfl | hn
    · exact hexValue?_lt hd
    · exact ih hrest n hn

theorem inRange_ofHash {s : List Char} {c : Rgba} (h : ofHash? s = some c) : c.InRange := by
  unfold ofHash? at h
  split at h
  · split at h
    · rename_i r g b hdigits
      have hlt := hexValues_lt hdigits
      simp only [List.mem_cons, List.not_mem_nil, or_false, forall_eq_or_imp, forall_eq] at hlt
      cases h
      exact inRange_solid (by omega) (by omega) (by omega)
    · rename_i r r' g g' b b' hdigits
      have hlt := hexValues_lt hdigits
      simp only [List.mem_cons, List.not_mem_nil, or_false, forall_eq_or_imp, forall_eq] at hlt
      cases h
      exact inRange_solid (by omega) (by omega) (by omega)
    · rename_i r r' g g' b b' a a' hdigits
      have hlt := hexValues_lt hdigits
      simp only [List.mem_cons, List.not_mem_nil, or_false, forall_eq_or_imp, forall_eq] at hlt
      cases h
      constructor <;> simp only <;> omega
    · cases h
  · cases h

/-- **Every channel of a colour that a style denotes is in `0 … 255`.** -/
theorem inRange_ofStyle {style : String} {c : Rgba} (h : ofStyle style = .ok c) : c.InRange := by
  unfold ofStyle at h
  simp only at h
  split at h
  · cases h
  · split at h
    · cases h
      decide
    · split at h
      · rename_i hname
        cases h
        exact inRange_named hname
      · split at h
        · rename_i hfunction
          rw [h] at hfunction
          exact inRange_ofFunction hfunction
        · split at h
          · rename_i hhash
            cases h
            exact inRange_ofHash hhash
          · cases h

/-! ## Fading -/

section

variable {α : Type} [Scalar α]

/-- **A colour that is faded all the way is the colour**, as far as scalars count. -/
theorem fade_one (h : Scalar.CountsTo α 255) {c : Rgba} (hc : c.InRange) :
    c.fade (Scalar.one : α) = c := by
  obtain ⟨hlow, hhigh⟩ := hc.alpha
  have halpha : fadedAlpha c.alpha (Scalar.one : α) = .ok c.alpha := by
    unfold fadedAlpha Scalar.ofInt?
    rw [if_pos (h.holds hlow hhigh), h.unitClamp_one (by decide)]
    exact h.round_mul_one hlow hhigh
  unfold fade fade?
  rw [halpha]
  rfl

end

end CanvasScript.Rgba
