import CanvasScript.Files.Path
import CanvasScript.Raster.Canvas

/-!
# Trees of files

A tree of files holds texts and pictures in folders. A path is followed name by name from the top of
the tree; every name but the last must be that of a folder, and nothing lies above the top.

Model of the files that programs, settings and pictures are read from and written to.

* `FileTree.read` gives the text of a file.
* `FileTree.write` puts something into a file whose folder is there.
* `FileTree.makeFolders` makes those folders of a path that are not there.

Out of scope: links, permissions, the bytes by which a text is encoded, and paths that start at the
top of all folders, which lead nowhere here.
-/

namespace CanvasScript

/-- What a file holds. -/
inductive Content where
  | text (text : String)
  | picture (canvas : Canvas)
  deriving DecidableEq, Repr

/-- Why a file cannot be used. -/
inductive FileFault where
  | missing
  /-- A folder stands where a file is wanted. -/
  | isFolder
  /-- A file stands where a path goes on. -/
  | notFolder
  /-- A file stands where a folder is wanted. -/
  | occupied
  /-- The file holds no text. -/
  | notText
  deriving DecidableEq, Repr

/-- What is at a place of a tree. -/
inductive Entry where
  | folder
  | file (content : Content)
  deriving DecidableEq, Repr

/-- A tree of files. A place is given by its names, the innermost first. -/
structure FileTree where
  entries : List (List String × Entry)
  deriving DecidableEq, Repr

namespace FileTree

/-- A tree without files. -/
def empty : FileTree := ⟨[]⟩

/-- What is at a place; the top is a folder. -/
def entry? (tree : FileTree) : List String → Option Entry
  | [] => some .folder
  | place => tree.entries.lookup place

/-- The tree with something at a place. -/
def put (tree : FileTree) (place : List String) (entry : Entry) : FileTree :=
  if (tree.entries.lookup place).isSome then
    ⟨tree.entries.map fun (p, e) => if p = place then (p, entry) else (p, e)⟩
  else ⟨tree.entries ++ [(place, entry)]⟩

/-- The place of a name in a folder. -/
def below (place : List String) (name : String) : Except FileFault (List String) :=
  if name = Path.upward then
    match place with
    | [] => .error .missing
    | _ :: outer => .ok outer
  else .ok (name :: place)

/-- The place to which names lead from a place. -/
def follow (tree : FileTree) (place : List String) : List String → Except FileFault (List String)
  | [] => .ok place
  | name :: rest => do
    match tree.entry? place with
    | some .folder => tree.follow (← below place name) rest
    | some (.file _) => throw .notFolder
    | none => throw .missing

/-- The names of a path from the top of the tree. -/
def namesOf (path : Path) : Except FileFault (List String) :=
  if path.root.isEmpty then .ok path.names else .error .missing

/-- The place of a path. -/
def locate (tree : FileTree) (path : Path) : Except FileFault (List String) := do
  tree.follow [] (← namesOf path)

/-- The text of the file at a path. -/
def read (tree : FileTree) (path : Path) : Except FileFault String := do
  match tree.entry? (← tree.locate path) with
  | some (.file (.text text)) => return text
  | some (.file (.picture _)) => throw .notText
  | some .folder => throw .isFolder
  | none => throw .missing

/-- The tree with something in the file at a path. -/
def write (tree : FileTree) (path : Path) (content : Content) : Except FileFault FileTree := do
  let place ← tree.locate path
  match tree.entry? place with
  | some .folder => throw .isFolder
  | _ => return tree.put place (.file content)

/-- The tree with the folders to which names lead from a place. -/
def makeFrom (tree : FileTree) (place : List String) : List String → Except FileFault FileTree
  | [] => .ok tree
  | name :: rest => do
    let place ← below place name
    match tree.entry? place with
    | some .folder => tree.makeFrom place rest
    | some (.file _) => throw (if rest.isEmpty then .occupied else .notFolder)
    | none => (tree.put place .folder).makeFrom place rest

/-- The tree with all folders of a path. -/
def makeFolders (tree : FileTree) (path : Path) : Except FileFault FileTree := do
  tree.makeFrom [] (← namesOf path)

/-- The tree with a text in the file at a path, for which folders are made. A text that has no place
is left out. -/
def plant (tree : FileTree) (path : Path) (text : String) : FileTree :=
  let folder : Path := { path with names := path.names.dropLast }
  match tree.makeFolders folder with
  | .ok made => (made.write path (.text text)).toOption.getD tree
  | .error _ => tree

/-- The tree of some texts, each with the text of its path. -/
def ofTexts (texts : List (String × String)) : FileTree :=
  texts.foldl (fun tree (path, text) => tree.plant (Path.ofText path) text) empty

/-- The pictures in a tree, each with the text of its path. -/
def pictures (tree : FileTree) : List (String × Canvas) :=
  tree.entries.filterMap fun (place, entry) =>
    match entry with
    | .file (.picture canvas) => some ((Path.mk "" place.reverse).text, canvas)
    | _ => none

end FileTree

end CanvasScript
