import CanvasScript.Files.Tree
import CanvasScript.Proofs.Except

/-!
# Files that are written

A file is written where its path leads. Folders stay as they are, so every path that led to a place
still does.

* `FileTree.Holds` says that a path leads to a place for a file.
* `FileTree.entry?_put`: what is put at a place is all that changes.
* `FileTree.read_write`: **a text that is written is read back**.
-/

namespace CanvasScript

namespace FileTree

variable {tree : FileTree} {place : List String}

/-- The path leads to a file, or to a place in a folder where there is nothing yet. -/
def Holds (tree : FileTree) (path : Path) : Prop :=
  ∃ place, tree.locate path = .ok place ∧ tree.entry? place ≠ some .folder

/-! ## Places -/

theorem entry?_eq_lookup (h : place ≠ []) : tree.entry? place = tree.entries.lookup place := by
  cases place with
  | nil => exact absurd rfl h
  | cons name outer => rfl

theorem lookup_cons_if (p : List String) (e : Entry) (rest : List (List String × Entry))
    (other : List String) :
    ((p, e) :: rest).lookup other = if other = p then some e else rest.lookup other := by
  by_cases h : other = p
  · rw [if_pos h, h, List.lookup_cons_self]
  · rw [if_neg h, List.lookup_cons, beq_false_of_ne h]

/-- An entry that is there is replaced where it stands. -/
theorem lookup_replace (entries : List (List String × Entry)) (place other : List String)
    (entry : Entry) :
    (entries.map fun (p, e) => if p = place then (p, entry) else (p, e)).lookup other =
      if other = place then (entries.lookup place).map fun _ => entry
      else entries.lookup other := by
  induction entries with
  | nil => split <;> rfl
  | cons first rest ih =>
    obtain ⟨p, e⟩ := first
    rw [List.map_cons, lookup_cons_if p e rest place, lookup_cons_if p e rest other]
    by_cases hp : p = place
    · subst hp
      simp only [if_true, lookup_cons_if, ih, Option.map_some]
      split <;> rfl
    · simp only [if_neg hp, if_neg (Ne.symm hp), lookup_cons_if, ih]
      by_cases hother : other = p
      · rw [if_pos hother, if_neg fun h => hp (hother.symm.trans h), if_pos hother]
      · rw [if_neg hother, if_neg hother]

/-- What is put at a place is all that changes. -/
theorem entry?_put (h : place ≠ []) (entry : Entry) (other : List String) :
    entry? (tree.put place entry) other =
      if other = place then some entry else tree.entry? other := by
  by_cases hother : other = []
  · rw [hother, if_neg (Ne.symm h)]
    rfl
  · rw [entry?_eq_lookup hother, entry?_eq_lookup hother]
    unfold put
    split
    · rename_i hsome
      obtain ⟨old, hold⟩ := Option.isSome_iff_exists.mp hsome
      simp only [lookup_replace, hold, Option.map_some]
    · rename_i hnone
      rw [List.lookup_append, lookup_cons_if, List.lookup_nil]
      split
      · rename_i heq
        rw [heq, Option.not_isSome_iff_eq_none.mp hnone, Option.none_or]
      · rw [Option.or_none]

/-- Names still lead to a place when a file is put there. -/
theorem follow_put (h : tree.entry? place ≠ some .folder) (content : Content) {start : List String}
    {names : List String} (hfollow : tree.follow start names = .ok place) :
    (tree.put place (.file content)).follow start names = .ok place := by
  have hplace : place ≠ [] := by
    rintro rfl
    exact h rfl
  induction names generalizing start with
  | nil => exact hfollow
  | cons name rest ih =>
    rw [follow] at hfollow ⊢
    split at hfollow
    · rename_i hfolder
      obtain ⟨inner, hinner, hrest⟩ := bind_eq_ok.mp hfollow
      have hstart : start ≠ place := by
        rintro rfl
        exact h hfolder
      rw [entry?_put hplace, if_neg hstart, hfolder, hinner]
      exact ih hrest
    · cases hfollow
    · cases hfollow

/-! ## Files -/

variable {path : Path}

/-- **A text that is written is read back.** -/
theorem read_write (h : tree.Holds path) (text : String) :
    ∃ tree', tree.write path (.text text) = .ok tree' ∧ tree'.read path = .ok text := by
  obtain ⟨place, hlocate, hentry⟩ := h
  obtain ⟨names, hnames, hfollow⟩ := bind_eq_ok.mp hlocate
  have hplace : place ≠ [] := by
    rintro rfl
    exact hentry rfl
  have hagain : (tree.put place (.file (.text text))).locate path = .ok place :=
    bind_eq_ok.mpr ⟨names, hnames, follow_put hentry _ hfollow⟩
  refine ⟨tree.put place (.file (.text text)), bind_eq_ok.mpr ⟨place, hlocate, ?_⟩,
    bind_eq_ok.mpr ⟨place, hagain, ?_⟩⟩
  · split
    · rename_i hfolder
      exact absurd hfolder hentry
    · rfl
  · rw [entry?_put hplace, if_pos rfl]
    rfl

end FileTree

end CanvasScript
