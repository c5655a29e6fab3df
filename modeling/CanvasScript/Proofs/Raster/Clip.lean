import CanvasScript.Proofs.Scalar.Exact
import CanvasScript.Raster.Line
import Mathlib.Data.Rat.Floor
import Mathlib.Order.Interval.Set.Basic

/-!
# Clipping without rounding

A segment is cut to a rectangle by its four sides (`_clip_segment`), one after another. Each side
bounds how far along the segment its points may lie, and what is kept is the part between two such
bounds.

* `Segment.along s t` is the point at `t` of the way, and `s.Covers p` says that `p` is one of
  these.
* `Segment.Keeps places part`: the part from one bound to the other is all of the places.
* `Segment.IsPartIn low high s part`: a segment is what lies in a rectangle of another one.

Results:
* `Segment.keeps_clipSide`: **a side keeps the places on its inner side, and no others**.
* `Segment.keeps_bounds?`: so the four sides keep the places in the rectangle.
* `Segment.clip_exact`: **what is left of a segment is all of it that lies in the rectangle**, and
  nothing is left only where none of it does.

Out of scope: the rounding of doubles, under which an end that is cut off lies on its side nearly.
-/

namespace CanvasScript

open Scalar
open scoped Exact

namespace Segment

section Keeps

variable {K : Type} [LinearOrder K]

/-- What is kept of a segment: the part between two bounds, which holds all of the places and no
others. -/
def Keeps (places : Set K) : Option (K × K) → Prop
  | none => places = ∅
  | some (t₀, t₁) => t₀ ≤ t₁ ∧ places = Set.Icc t₀ t₁

/-- Bounds that have crossed leave nothing between them. -/
theorem keeps_Icc (t₀ t₁ : K) :
    Keeps (Set.Icc t₀ t₁) (if t₁ < t₀ then none else some (t₀, t₁)) := by
  by_cases h : t₁ < t₀
  · rw [if_pos h]
    exact Set.Icc_eq_empty (not_le.mpr h)
  · rw [if_neg h]
    exact ⟨not_lt.mp h, rfl⟩

end Keeps

section Along

variable {K : Type} [Field K]

/-- The point at `t` of the way from the start of a segment to its finish. -/
def along (s : Segment K) (t : K) : Point K :=
  ⟨s.start.x + t * (s.finish.x - s.start.x), s.start.y + t * (s.finish.y - s.start.y)⟩

theorem along_along (s : Segment K) (t₀ t₁ u : K) :
    along ⟨s.along t₀, s.along t₁⟩ u = s.along (t₀ + u * (t₁ - t₀)) := by
  simp only [along, Point.mk.injEq]
  constructor <;> ring

variable [LinearOrder K]

/-- A point belongs to a segment, ends included. -/
def Covers (s : Segment K) (p : Point K) : Prop := ∃ t, 0 ≤ t ∧ t ≤ 1 ∧ s.along t = p

variable [IsStrictOrderedRing K]

/-- The points of a part are those at the places between its ends. -/
theorem covers_along {t₀ t₁ : K} (h : t₀ ≤ t₁) (s : Segment K) (p : Point K) :
    Covers ⟨s.along t₀, s.along t₁⟩ p ↔ ∃ t ∈ Set.Icc t₀ t₁, s.along t = p := by
  constructor
  · rintro ⟨u, hu₀, hu₁, rfl⟩
    refine ⟨t₀ + u * (t₁ - t₀), ⟨?_, ?_⟩, (along_along s t₀ t₁ u).symm⟩
    · have := mul_nonneg hu₀ (sub_nonneg.mpr h)
      linarith
    · have := mul_le_mul_of_nonneg_right hu₁ (sub_nonneg.mpr h)
      linarith
  · rintro ⟨t, ⟨ht₀, ht₁⟩, rfl⟩
    rcases h.eq_or_lt with rfl | hlt
    · obtain rfl := le_antisymm ht₀ ht₁
      exact ⟨0, le_rfl, zero_le_one, by rw [along_along, zero_mul, add_zero]⟩
    · have hpos : 0 < t₁ - t₀ := sub_pos.mpr hlt
      refine ⟨(t - t₀) / (t₁ - t₀), div_nonneg (sub_nonneg.mpr ht₀) hpos.le, ?_, ?_⟩
      · rw [div_le_one hpos]
        linarith
      · rw [along_along, div_mul_cancel₀ _ hpos.ne', add_sub_cancel]

end Along

end Segment

/-- A point lies in the rectangle between two corners, sides included. -/
structure Point.Between {K : Type} [LinearOrder K] (low high p : Point K) : Prop where
  left : low.x ≤ p.x
  right : p.x ≤ high.x
  top : low.y ≤ p.y
  bottom : p.y ≤ high.y

namespace Segment

variable {K : Type} [Field K] [LinearOrder K]

/-- A segment is what lies in a rectangle of another one. -/
structure IsPartIn (low high : Point K) (s part : Segment K) : Prop where
  start : low.Between high part.start
  finish : low.Between high part.finish
  /-- Both ends lie on the other segment, in its order, and enclose all that lies in the
  rectangle. -/
  ends : ∃ t₀ t₁, 0 ≤ t₀ ∧ t₀ ≤ t₁ ∧ t₁ ≤ 1 ∧ s.along t₀ = part.start ∧ s.along t₁ = part.finish ∧
    ∀ t, 0 ≤ t → t ≤ 1 → (low.Between high (s.along t) ↔ t₀ ≤ t ∧ t ≤ t₁)
  covers : ∀ p, part.Covers p ↔ s.Covers p ∧ low.Between high p

variable [FloorRing K] [ScalarFunctions K]

/-! ## One side -/

section Side

variable (p q t₀ t₁ : K)

/-- A segment along a side is kept or not as a whole. -/
theorem clipSide_along (hp : p = 0) :
    clipSide p q (t₀, t₁) = if q < 0 then none else some (t₀, t₁) := by
  simp [clipSide, same, hp]

/-- A segment that comes from behind a side is kept from there on. -/
theorem clipSide_entering (hp : p < 0) :
    clipSide p q (t₀, t₁) =
      if t₁ < max t₀ (q / p) then none else some (max t₀ (q / p), t₁) := by
  simp [clipSide, same, hp]

/-- A segment that goes behind a side is kept up to there. -/
theorem clipSide_leaving (hp : 0 < p) :
    clipSide p q (t₀, t₁) =
      if min t₁ (q / p) < t₀ then none else some (t₀, min t₁ (q / p)) := by
  have hsign : ¬ p < 0 := not_lt.mpr hp.le
  simp [clipSide, same, hp, hsign]

end Side

variable [IsStrictOrderedRing K]

/-- **A side keeps the places on its inner side, and no others.** -/
theorem keeps_clipSide (p q : K) {places : Set K} {part : Option (K × K)}
    (h : Keeps places part) :
    Keeps (places ∩ {t | t * p ≤ q}) (part.bind (clipSide p q)) := by
  rcases part with _ | ⟨t₀, t₁⟩
  · obtain rfl : places = ∅ := h
    exact Set.empty_inter _
  obtain ⟨hle, rfl⟩ := h
  show Keeps _ (clipSide p q (t₀, t₁))
  rcases lt_trichotomy p 0 with hp | hp | hp
  · have hplaces : Set.Icc t₀ t₁ ∩ {t | t * p ≤ q} = Set.Icc (max t₀ (q / p)) t₁ := by
      ext t
      simp only [Set.mem_inter_iff, Set.mem_ofPred_eq, Set.mem_Icc, max_le_iff,
        div_le_iff_of_neg hp]
      tauto
    rw [clipSide_entering p q t₀ t₁ hp, hplaces]
    exact keeps_Icc _ _
  · rw [clipSide_along p q t₀ t₁ hp, hp]
    by_cases hq : q < 0
    · rw [if_pos hq]
      ext t
      simp [hq]
    · rw [if_neg hq]
      refine ⟨hle, ?_⟩
      ext t
      simp [not_lt.mp hq]
  · have hplaces : Set.Icc t₀ t₁ ∩ {t | t * p ≤ q} = Set.Icc t₀ (min t₁ (q / p)) := by
      ext t
      simp only [Set.mem_inter_iff, Set.mem_ofPred_eq, Set.mem_Icc, le_min_iff, le_div_iff₀ hp]
      tauto
    rw [clipSide_leaving p q t₀ t₁ hp, hplaces]
    exact keeps_Icc _ _

/-! ## Four sides -/

/-- The bounds that the four sides of a rectangle leave of a segment. -/
def bounds? (s : Segment K) (low high : Point K) : Option (K × K) :=
  ((((some (0, 1)).bind (clipSide (-(s.finish.x - s.start.x)) (s.start.x - low.x))).bind
    (clipSide (s.finish.x - s.start.x) (high.x - s.start.x))).bind
      (clipSide (-(s.finish.y - s.start.y)) (s.start.y - low.y))).bind
        (clipSide (s.finish.y - s.start.y) (high.y - s.start.y))

omit [IsStrictOrderedRing K] in
theorem clip?_eq (s : Segment K) (low high : Point K) :
    s.clip? low high = (s.bounds? low high).map fun part => ⟨s.along part.1, s.along part.2⟩ := by
  unfold clip? bounds? along
  simp only [Exact.zero_eq, Exact.one_eq, Option.bind_some, Option.bind_eq_bind,
    Option.map_eq_bind, Option.bind_assoc, Option.pure_def, Function.comp_def]

/-- **The four sides keep the places in the rectangle.** -/
theorem keeps_bounds? (s : Segment K) (low high : Point K) :
    Keeps (Set.Icc 0 1 ∩ {t | low.Between high (s.along t)}) (s.bounds? low high) := by
  have hstart : Keeps (Set.Icc (0 : K) 1) (some (0, 1)) := ⟨zero_le_one, rfl⟩
  have hsides := keeps_clipSide (s.finish.y - s.start.y) (high.y - s.start.y)
    (keeps_clipSide (-(s.finish.y - s.start.y)) (s.start.y - low.y)
      (keeps_clipSide (s.finish.x - s.start.x) (high.x - s.start.x)
        (keeps_clipSide (-(s.finish.x - s.start.x)) (s.start.x - low.x) hstart)))
  refine Eq.mp (congrArg (Keeps · _) ?_) hsides
  ext t
  simp only [Set.mem_inter_iff, Set.mem_ofPred_eq, and_assoc]
  refine and_congr_right fun _ => ?_
  constructor
  · rintro ⟨hleft, hright, htop, hbottom⟩
    constructor <;> simp only [along] <;> linarith
  · rintro ⟨hleft, hright, htop, hbottom⟩
    simp only [along] at hleft hright htop hbottom
    refine ⟨?_, ?_, ?_, ?_⟩ <;> linarith

/-- Nothing is left of a segment just where none of it lies in the rectangle. -/
theorem clip?_eq_none (s : Segment K) (low high : Point K) :
    s.clip? low high = none ↔ ¬ ∃ p, s.Covers p ∧ low.Between high p := by
  have hkeeps := keeps_bounds? s low high
  rw [clip?_eq, Option.map_eq_none_iff]
  generalize s.bounds? low high = bounds at hkeeps ⊢
  rcases bounds with _ | ⟨t₀, t₁⟩
  · refine iff_of_true rfl ?_
    rintro ⟨_, ⟨t, ht₀, ht₁, rfl⟩, hin⟩
    exact Set.eq_empty_iff_forall_notMem.mp hkeeps t ⟨⟨ht₀, ht₁⟩, hin⟩
  · obtain ⟨hle, hplaces⟩ := hkeeps
    obtain ⟨⟨ht₀, ht₁⟩, hin⟩ := hplaces.ge (Set.left_mem_Icc.mpr hle)
    exact iff_of_false (by simp) (not_not.mpr ⟨_, ⟨t₀, ht₀, ht₁, rfl⟩, hin⟩)

/-- What is left of a segment is what lies in the rectangle. -/
theorem isPartIn_of_clip? {s part : Segment K} {low high : Point K}
    (h : s.clip? low high = some part) : IsPartIn low high s part := by
  have hkeeps := keeps_bounds? s low high
  rw [clip?_eq] at h
  obtain ⟨⟨t₀, t₁⟩, hbounds, rfl⟩ := Option.map_eq_some_iff.mp h
  rw [hbounds] at hkeeps
  obtain ⟨hle, hplaces⟩ := hkeeps
  have hmem (t : K) : t ∈ Set.Icc t₀ t₁ ↔ (0 ≤ t ∧ t ≤ 1) ∧ low.Between high (s.along t) := by
    rw [← hplaces]
    rfl
  have hfirst := (hmem t₀).mp ⟨le_rfl, hle⟩
  have hlast := (hmem t₁).mp ⟨hle, le_rfl⟩
  constructor
  case start => exact hfirst.2
  case finish => exact hlast.2
  case ends =>
    refine ⟨t₀, t₁, hfirst.1.1, hle, hlast.1.2, rfl, rfl, fun t ht₀ ht₁ => ?_⟩
    rw [← Set.mem_Icc, hmem]
    exact ⟨fun hin => ⟨⟨ht₀, ht₁⟩, hin⟩, fun h => h.2⟩
  case covers =>
    intro p
    rw [covers_along hle]
    constructor
    · rintro ⟨t, ht, rfl⟩
      obtain ⟨⟨ht₀, ht₁⟩, hin⟩ := (hmem t).mp ht
      exact ⟨⟨t, ht₀, ht₁, rfl⟩, hin⟩
    · rintro ⟨⟨t, ht₀, ht₁, rfl⟩, hin⟩
      exact ⟨t, (hmem t).mpr ⟨⟨ht₀, ht₁⟩, hin⟩, rfl⟩

/-- **What is left of a segment is all of it that lies in the rectangle**, from its first point
there to its last; and nothing is left just where none of it does. -/
theorem clip_exact (s : Segment K) (low high : Point K) :
    (s.clip? low high = none ↔ ¬ ∃ p, s.Covers p ∧ low.Between high p) ∧
      ∀ part, s.clip? low high = some part → IsPartIn low high s part :=
  ⟨clip?_eq_none s low high, fun _ h => isPartIn_of_clip? h⟩

/-- A segment that comes in on the left and goes out at the bottom, and a point on the right. -/
theorem clip_exact_crossing :
    Segment.clip? (⟨⟨-1, 0⟩, ⟨3, 2⟩⟩ : Segment Rat) ⟨0, 0⟩ ⟨2, 1⟩ =
        some ⟨⟨0, 1 / 2⟩, ⟨1, 1⟩⟩ ∧
      IsPartIn ⟨0, 0⟩ ⟨2, 1⟩ (⟨⟨-1, 0⟩, ⟨3, 2⟩⟩ : Segment Rat) ⟨⟨0, 1 / 2⟩, ⟨1, 1⟩⟩ ∧
      Segment.clip? (⟨⟨3, 0⟩, ⟨3, 0⟩⟩ : Segment Rat) ⟨0, 0⟩ ⟨2, 1⟩ = none ∧
      ¬ ∃ p, Covers (⟨⟨3, 0⟩, ⟨3, 0⟩⟩ : Segment Rat) p ∧ Point.Between ⟨0, 0⟩ ⟨2, 1⟩ p := by
  have hpart : Segment.clip? (⟨⟨-1, 0⟩, ⟨3, 2⟩⟩ : Segment Rat) ⟨0, 0⟩ ⟨2, 1⟩ =
      some ⟨⟨0, 1 / 2⟩, ⟨1, 1⟩⟩ := by decide +kernel
  have hnone : Segment.clip? (⟨⟨3, 0⟩, ⟨3, 0⟩⟩ : Segment Rat) ⟨0, 0⟩ ⟨2, 1⟩ = none := by
    decide +kernel
  exact ⟨hpart, (clip_exact _ _ _).2 _ hpart, hnone, (clip_exact _ _ _).1.mp hnone⟩

end Segment

end CanvasScript
