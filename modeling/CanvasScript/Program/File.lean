import CanvasScript.Files.Tree
import CanvasScript.Program

/-!
# Program files

Programs are saved in files of a tree and loaded from them.

Model of `save_program` and `load_program` on a tree of files.

* `Program.save` writes the file of a program. It decides first whether the program can be saved, so
  a program that is refused leaves the tree as it was (`Program.save_refused`).
* `Program.openAt` is the program of a file, checked under a policy.

Out of scope: what a file system adds: permissions, links, and writing that fails half way.
-/

namespace CanvasScript

/-- Why a program is not saved in a file. -/
inductive ProgramSaveFault (α : Type) where
  | program (error : SaveError α)
  | file (fault : FileFault)
  deriving Repr

/-- Why a program is not loaded from a file. -/
inductive ProgramOpenFault (α : Type) where
  | file (fault : FileFault)
  | program (error : ProgramFileError α)
  deriving Repr

namespace Program

variable {α : Type} [Written α]

/-- Saves a program in the file at a path, after a check if one is wanted. -/
def save (validate : Bool) (path : Path) (p : Program α) (tree : FileTree) :
    Except (ProgramSaveFault α) Unit × FileTree :=
  match p.saved validate with
  | .error error => (.error (.program error), tree)
  | .ok text =>
    match tree.write path (.text text) with
    | .error fault => (.error (.file fault), tree)
    | .ok tree => (.ok (), tree)

/-- The program of the file at a path. -/
def openAt (policy : Value α) (path : Path) (tree : FileTree) :
    Except (ProgramOpenFault α) (Program α) := do
  let text ← (tree.read path).mapError .file
  (Program.read policy text).mapError .program

theorem save_refused {validate : Bool} {path : Path} {p : Program α} {tree : FileTree}
    {fault : ProgramSaveFault α} (h : (p.save validate path tree).1 = .error fault) :
    (p.save validate path tree).2 = tree := by
  unfold save at h ⊢
  split
  · rfl
  · next text hs =>
    rw [hs] at h
    split
    · rfl
    · next tree' hw => simp [hw] at h

end Program

end CanvasScript
