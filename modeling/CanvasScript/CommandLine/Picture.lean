import CanvasScript.Files.Tree

/-!
# Saving pictures

The extension of a path tells in which format a picture is saved. A format without transparency is
refused, since every picture may have some.

Model of how `main` saves pixels at a path.

Out of scope: formats but these two. Their extensions count as unknown.
-/

namespace CanvasScript.CommandLine

/-- A format in which pictures are saved. -/
inductive PictureFormat where
  | png
  | jpeg
  deriving DecidableEq, Repr

/-- Why a picture is not saved. -/
inductive SaveFault where
  | unknownExtension (extension : String)
  /-- The format has no transparency. -/
  | opaqueFormat (format : PictureFormat)
  | file (fault : FileFault)
  deriving DecidableEq, Repr

namespace PictureFormat

/-- The formats by extension. -/
def extensions : List (String × PictureFormat) := [
  (".png", .png), (".apng", .png), (".jpg", .jpeg), (".jpeg", .jpeg), (".jpe", .jpeg),
  (".jfif", .jpeg)]

/-- The name of a format. -/
def name : PictureFormat → String
  | .png => "PNG"
  | .jpeg => "JPEG"

/-- Whether the pixels of a format may be transparent. -/
def hasTransparency : PictureFormat → Bool
  | .png => true
  | .jpeg => false

/-- The format of the picture at a path. -/
def ofPath (path : Path) : Except SaveFault PictureFormat :=
  match extensions.lookup path.extension with
  | some format => .ok format
  | none => .error (.unknownExtension path.extension)

end PictureFormat

/-- The text that reports the fault; that of a file is not told. -/
def SaveFault.message : SaveFault → Option String
  | .unknownExtension extension => some ("unknown file extension: " ++ extension)
  | .opaqueFormat format => some ("cannot write mode RGBA as " ++ format.name)
  | .file _ => none

/-- The tree with a picture at a path. -/
def savePicture (tree : FileTree) (path : Path) (canvas : Canvas) : Except SaveFault FileTree := do
  let format ← PictureFormat.ofPath path
  let saved ← (tree.write path (.picture canvas)).mapError .file
  if format.hasTransparency then return saved
  else throw (.opaqueFormat format)

end CanvasScript.CommandLine
