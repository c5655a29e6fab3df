import CanvasScript.Proofs.Color.Characters
import CanvasScript.Proofs.Text.Trim

/-!
# Spellings of styles

How far blanks and the case of letters count where `parse_color` reads a style. Two texts are
`Respelled` when one comes from the other by blanks that are inserted or removed at any place, and
by the case of ASCII letters.

* `respelled_iff`: respelled texts are those with the same `letters`.
* `essence_eq_letters`: what counts of a style is its letters, as long as the blanks inside it are
  spaces (`HasOnlySpaces`).
* `toOption_ofStyle_of_not_hasOnlySpaces`: with another blank inside, a style denotes nothing.
* `ofStyle_respelled`: **two spellings denote the same colour or both none**, unless just one of
  them has another blank than a space inside; that one denotes none.

Out of scope: letters beyond ASCII whose small form is within it. There is one, the sign for kelvin
(`Rgba.small`).
-/

namespace CanvasScript.Rgba

open Text

/-- One text is the other with blanks inserted or removed, and with the case of letters changed. -/
inductive Respelled : List Char → List Char → Prop
  | nil : Respelled [] []
  | blankLeft {c : Char} {s t : List Char} (blank : isBlank c = true) (rest : Respelled s t) :
      Respelled (c :: s) t
  | blankRight {c : Char} {s t : List Char} (blank : isBlank c = true) (rest : Respelled s t) :
      Respelled s (c :: t)
  | letter {c d : Char} {s t : List Char} (same : c.toLower = d.toLower) (rest : Respelled s t) :
      Respelled (c :: s) (d :: t)

/-- The characters that are no blanks, without their case. -/
def letters (s : List Char) : List Char := (s.filter (!isBlank ·)).map Char.toLower

/-- Between the blanks around it, a style has no other blanks than spaces. -/
def HasOnlySpaces (style : String) : Prop := ∀ c ∈ trim style.toList, isBlank c = true → c = ' '

instance (style : String) : Decidable (HasOnlySpaces style) :=
  List.decidableBAll (fun c => isBlank c = true → c = ' ') (trim style.toList)

/-! ## The case of a letter -/

/-- What does not tell `A` from `a`, up to `Z`, does not tell the case of any character. -/
theorem apply_toLower {β : Type} (f : Char → β)
    (hupper : ∀ k < 26, f (Char.ofNat (65 + k)).toLower = f (Char.ofNat (65 + k))) (c : Char) :
    f c.toLower = f c := by
  by_cases hc : c.val ≥ 65 ∧ c.val ≤ 90
  · have hl : 65 ≤ c.toNat := UInt32.le_iff_toNat_le.mp hc.1
    have hu : c.toNat ≤ 90 := UInt32.le_iff_toNat_le.mp hc.2
    have h := hupper (c.toNat - 65) (by omega)
    rwa [Nat.add_sub_cancel' hl, Char.ofNat_toNat] at h
  · have hsame : c.toLower = c := dif_neg hc
    rw [hsame]

theorem small_toLower (c : Char) : small c.toLower = small c := apply_toLower small (by decide) c

theorem isBlank_toLower (c : Char) : isBlank c.toLower = isBlank c :=
  apply_toLower isBlank (by decide) c

/-! ## Letters -/

theorem letters_blank {c : Char} (h : isBlank c = true) (s : List Char) :
    letters (c :: s) = letters s := by
  unfold letters
  rw [List.filter_cons_of_neg (by rw [h]; decide)]

theorem letters_letter {c : Char} (h : isBlank c = false) (s : List Char) :
    letters (c :: s) = c.toLower :: letters s := by
  unfold letters
  rw [List.filter_cons_of_pos (by rw [h]; decide), List.map_cons]

theorem letters_eq_of_respelled {s t : List Char} (h : Respelled s t) : letters s = letters t := by
  induction h with
  | nil => rfl
  | blankLeft blank _ ih => rw [letters_blank blank, ih]
  | blankRight blank _ ih => rw [letters_blank blank, ih]
  | @letter c d s t same _ ih =>
    have hblank : isBlank c = isBlank d := by rw [← isBlank_toLower c, same, isBlank_toLower d]
    cases hd : isBlank d with
    | true => rw [letters_blank (hblank.trans hd), letters_blank hd, ih]
    | false => rw [letters_letter (hblank.trans hd), letters_letter hd, ih, same]

/-- Letters that are left behind some blanks. -/
theorem exists_letters_eq_cons {t rest : List Char} {c : Char} (h : letters t = c :: rest) :
    ∃ blanks d t', t = blanks ++ d :: t' ∧ (∀ b ∈ blanks, isBlank b = true) ∧ d.toLower = c ∧
      letters t' = rest := by
  obtain ⟨d, kept, hkept, rfl, hrest⟩ := List.map_eq_cons_iff.mp h
  obtain ⟨blanks, t', rfl, hblanks, -, ht'⟩ := List.filter_eq_cons_iff.mp hkept
  refine ⟨blanks, d, t', rfl, fun b hb => ?_, rfl, ?_⟩
  · simpa using hblanks b hb
  · unfold letters
    rw [ht', hrest]

theorem Respelled.blanksRight {s t blanks : List Char} (h : ∀ b ∈ blanks, isBlank b = true)
    (rest : Respelled s t) : Respelled s (blanks ++ t) := by
  induction blanks with
  | nil => exact rest
  | cons b blanks ih =>
    obtain ⟨hb, hblanks⟩ := List.forall_mem_cons.mp h
    exact .blankRight hb (ih hblanks)

theorem respelled_of_letters_eq {s t : List Char} (h : letters s = letters t) : Respelled s t := by
  induction s generalizing t with
  | nil =>
    have hnil : t.filter (!isBlank ·) = [] := List.map_eq_nil_iff.mp h.symm
    rw [← List.append_nil t]
    refine .blanksRight (fun b hb => ?_) .nil
    simpa using List.filter_eq_nil_iff.mp hnil b hb
  | cons c s ih =>
    cases hc : isBlank c with
    | true =>
      rw [letters_blank hc] at h
      exact .blankLeft hc (ih h)
    | false =>
      rw [letters_letter hc] at h
      obtain ⟨blanks, d, t', rfl, hblanks, hd, hrest⟩ := exists_letters_eq_cons h.symm
      exact .blanksRight hblanks (.letter hd.symm (ih hrest.symm))

/-- **Respelled texts are those with the same letters.** -/
theorem respelled_iff {s t : List Char} : Respelled s t ↔ letters s = letters t :=
  ⟨letters_eq_of_respelled, respelled_of_letters_eq⟩

instance (s t : List Char) : Decidable (Respelled s t) := decidable_of_iff _ respelled_iff.symm

/-! ## What counts of a style -/

/-- The letters of a style are its essence when it has no other blanks than spaces inside. -/
theorem essence_eq_letters {style : String} (h : HasOnlySpaces style) :
    essence style = (letters style.toList).map small := by
  obtain ⟨lead, trail, hlead, htrail, hstyle⟩ := exists_trimBy isBlank style.toList
  have hnone {s : List Char} (hs : ∀ c ∈ s, isBlank c = true) : s.filter (!isBlank ·) = [] :=
    List.filter_eq_nil_iff.mpr fun c hc => by rw [hs c hc]; decide
  have hinner : style.toList.filter (!isBlank ·) = (trim style.toList).filter (!isBlank ·) := by
    conv_lhs => rw [hstyle]
    rw [List.filter_append, List.filter_append, hnone hlead, hnone htrail, List.nil_append,
      List.append_nil]
    rfl
  have hspaces : (trim style.toList).filter (!isBlank ·) =
      (trim style.toList).filter (· != ' ') := by
    refine List.filter_congr fun c hc => ?_
    by_cases hspace : c = ' '
    · rw [hspace]
      decide
    · have hblank : isBlank c = false := Bool.eq_false_iff.mpr fun hb => hspace (h c hc hb)
      rw [hblank, bne_iff_ne.mpr hspace]
      rfl
  unfold essence letters
  rw [hinner, hspaces, List.map_map]
  exact List.map_congr_left fun c _ => (small_toLower c).symm

/-- Styles with the same essence denote the same colour, or both none. -/
theorem toOption_ofStyle_congr {style style' : String} (h : essence style = essence style') :
    (ofStyle style).toOption = (ofStyle style').toOption := by
  unfold ofStyle
  rw [h]
  simp only
  split
  · rfl
  · split
    · rfl
    · split
      · rfl
      · split
        · rfl
        · split <;> rfl

/-- A style with another blank than a space inside denotes nothing. -/
theorem toOption_ofStyle_of_not_hasOnlySpaces {style : String} (h : ¬ HasOnlySpaces style) :
    (ofStyle style).toOption = none := by
  cases hstyle : ofStyle style with
  | error e => rfl
  | ok color =>
    refine absurd (fun c hc hblank => ?_) h
    rcases visible_of_isStyle (isOk_iff.mpr ⟨color, hstyle⟩) c hc with hspace | hvisible
    · exact hspace
    · exact Bool.noConfusion (hblank.symm.trans hvisible.1)

/-- **Two spellings denote the same colour or both none**, if both have no other blanks than spaces
inside or both have others; and what has others denotes none. -/
theorem ofStyle_respelled {style style' : String} (h : Respelled style.toList style'.toList) :
    ((HasOnlySpaces style ↔ HasOnlySpaces style') →
        (ofStyle style).toOption = (ofStyle style').toOption) ∧
      (¬ HasOnlySpaces style → (ofStyle style).toOption = none) ∧
      (¬ HasOnlySpaces style' → (ofStyle style').toOption = none) := by
  refine ⟨fun hspaces => ?_, toOption_ofStyle_of_not_hasOnlySpaces,
    toOption_ofStyle_of_not_hasOnlySpaces⟩
  by_cases hstyle : HasOnlySpaces style
  · refine toOption_ofStyle_congr ?_
    rw [essence_eq_letters hstyle, essence_eq_letters (hspaces.mp hstyle), respelled_iff.mp h]
  · rw [toOption_ofStyle_of_not_hasOnlySpaces hstyle,
      toOption_ofStyle_of_not_hasOnlySpaces fun hstyle' => hstyle (hspaces.mpr hstyle')]

theorem ofStyle_respelled_spaced :
    Respelled "rgb(1,2,3)".toList " RGB( 1, 2,3 )\n".toList ∧
      (HasOnlySpaces "rgb(1,2,3)" ↔ HasOnlySpaces " RGB( 1, 2,3 )\n") ∧
      (ofStyle "rgb(1,2,3)").toOption = (ofStyle " RGB( 1, 2,3 )\n").toOption ∧
      (ofStyle "rgb(1,2,3)").toOption = some (solid 1 2 3) := by
  have hspelled : Respelled "rgb(1,2,3)".toList " RGB( 1, 2,3 )\n".toList := by decide +kernel
  have hspaces : HasOnlySpaces "rgb(1,2,3)" ↔ HasOnlySpaces " RGB( 1, 2,3 )\n" := by
    decide +kernel
  exact ⟨hspelled, hspaces, (ofStyle_respelled hspelled).1 hspaces, by decide +kernel⟩

/-- A tab inside counts, where a space does not. -/
theorem ofStyle_tab :
    Respelled "rgb(1,2,3)".toList "rgb(1,\t2,3)".toList ∧
      (ofStyle "rgb(1,2,3)").toOption = some (solid 1 2 3) ∧
      (ofStyle "rgb(1,\t2,3)").toOption = none := by
  decide +kernel

end CanvasScript.Rgba
