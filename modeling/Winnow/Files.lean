import Winnow.Keyed
import Winnow.Text.Blank

/-!
# Files

The files that a command can read, as a function from paths to texts.
`ofEntries` is the view of a folder with given files: a path is followed name
by name from the folder on.
-/

namespace Winnow

/-- Why a file cannot be read. -/
inductive FileFault where
  | missing
  | isFolder
  | noFolder
  | nameTooLong
  | denied
  | notText
  deriving DecidableEq, Repr

/-- The wording of the fault. -/
def FileFault.message : FileFault → String
  | .missing => "No such file or directory (os error 2)"
  | .isFolder => "Is a directory (os error 21)"
  | .noFolder => "Not a directory (os error 20)"
  | .nameTooLong => "File name too long (os error 36)"
  | .denied => "Permission denied (os error 13)"
  | .notText => "stream did not contain valid UTF-8"

/-- What can be read. -/
structure Files where
  /-- The text of the file at a path. -/
  read : String → Except FileFault String

namespace Files

open Winnow.Text

/-- The files that were read before; all others are missing. -/
def ofReads (reads : List (String × Except FileFault String)) : Files where
  read path :=
    match reads.find? fun read => read.1 == path with
    | some (_, text) => text
    | none => .error .missing

/-! ## Folders -/

/-- Where a part of a path leads: out of the folder, to a folder in it or to a file. -/
inductive Place where
  | outside
  | folder (names : List String)
  | file (text : String)

/-- The folder with given folders and files, each under the names that lead to it. -/
structure Folder where
  folders : List (List String)
  files : List (List String × String)

/-- Longest name of a file, in bytes. -/
def maxNameSize : Nat := 255

/-- Longest path, in bytes. -/
def maxPathSize : Nat := 4095

namespace Folder

/-- What a name stands for in a folder. -/
def lookUp (f : Folder) (names : List String) (name : String) : Except FileFault Place :=
  let names := names ++ [name]
  if maxNameSize < name.utf8ByteSize then .error .nameTooLong
  else match f.files.find? fun file => file.1 == names with
    | some (_, text) => .ok (.file text)
    | none =>
      if f.folders.any fun folder => names.isPrefixOf folder then .ok (.folder names)
      else .error .missing

/-- Where a piece of a path leads from a place; two points lead back. -/
def follow (f : Folder) (place : Place) (piece : String) : Except FileFault Place :=
  match place with
  | .file _ => .error .noFolder
  | .outside => if piece.isEmpty || piece == "." || piece == ".." then .ok .outside
    else .error .missing
  | .folder names =>
    if piece.isEmpty || piece == "." then .ok place
    else if piece == ".." then
      .ok (if names.isEmpty then .outside else .folder names.dropLast)
    else f.lookUp names piece

/-- The text of the file that a path leads to. -/
def read (f : Folder) (path : String) : Except FileFault String := do
  if path.isEmpty then .error .missing
  else if maxPathSize < path.utf8ByteSize then .error .nameTooLong
  else
    let start := if startsWith "/" path then Place.outside else .folder []
    match ← (split '/' path).foldlM f.follow start with
    | .file text => .ok text
    | .outside | .folder _ => .error .isFolder

end Folder

/-- The files of a folder with the folders in it, which also hold the files below them. -/
def ofEntries (folders : List String) (entries : List (String × String)) : Files :=
  let names (path : String) := (split '/' path).filter fun name => !name.isEmpty && name != "."
  let files := entries.map fun (path, text) => (names path, text)
  let folder : Folder := ⟨folders.map names ++ files.map fun file => file.1.dropLast, files⟩
  ⟨folder.read⟩

/-- Whether there is a file to read at a path. -/
def has (files : Files) (path : String) : Bool := (files.read path).toBool

end Files
end Winnow
