import CypherSql.Text.Pieces

/-! # Folders

Paths are followed one name after the other, as a file system does it, so that a path
that leads nowhere fails at its first bad name.

* `FileError` — why a file cannot be read.
* `Folder` — a folder and what is in it.
* `Folder.read` — the content of the file at a path.
-/

namespace CypherSql

inductive FileError where
  | missing
  | isFolder
  | notFolder
  | nameTooLong
  | other (reason : String)
  deriving DecidableEq, Repr

def FileError.message : FileError → String
  | missing => "No such file or directory (os error 2)"
  | isFolder => "Is a directory (os error 21)"
  | notFolder => "Not a directory (os error 20)"
  | nameTooLong => "File name too long (os error 36)"
  | other reason => reason

/-- A folder: the files in it and in the folders below it, with their paths and contents.
The folders below are those that paths of files go through. -/
structure Folder where
  files : List (String × String)
  deriving DecidableEq, Repr

namespace Folder

/-- What a path leads to: something in the folder, told by the names that lead there, last
one first, or a folder outside, of which nothing but folders further out is known. -/
inductive Location where
  | inside (names : List String)
  | outside
  deriving DecidableEq, Repr

def names (path : String) : List String :=
  (Text.pieces '/' path.toList).map String.ofList

def stays (name : String) : Bool :=
  name == "" || name == "."

/-- The files with the names that lead to them, last one first. -/
def located (folder : Folder) : List (List String × String) :=
  folder.files.map fun (path, content) =>
    (((names path).filter fun name => !stays name).reverse, content)

def content? (folder : Folder) : Location → Option String
  | .inside place => (folder.located.find? fun file => file.1 == place).map (·.2)
  | .outside => none

/-- Whether a folder is at a place: the folder itself or one that leads to a file. -/
def hasFolder (folder : Folder) (place : List String) : Bool :=
  place.isEmpty || folder.located.any fun file => place != file.1 && place.isSuffixOf file.1

/-- The place that one more name leads to.  No name has more than 255 bytes. -/
def enter (folder : Folder) (location : Location) (name : String) :
    Except FileError Location :=
  if (folder.content? location).isSome then .error .notFolder
  else if stays name then .ok location
  else
    match location, name with
    | .inside (_ :: place), ".." => .ok (.inside place)
    | _, ".." => .ok .outside
    | .outside, _ => .error (if 255 < name.utf8ByteSize then .nameTooLong else .missing)
    | .inside place, _ =>
      let place := name :: place
      if 255 < name.utf8ByteSize then .error .nameTooLong
      else if (folder.content? (.inside place)).isSome || folder.hasFolder place then
        .ok (.inside place)
      else .error .missing

/-- The place that a path leads to.  A path that begins with a slash starts outside, and
none has 4096 bytes or more. -/
def locate (folder : Folder) (path : String) : Except FileError Location :=
  if 4096 ≤ path.utf8ByteSize then .error .nameTooLong
  else if path.isEmpty then .error .missing
  else
    let start := if path.toList.head? == some '/' then .outside else .inside []
    (names path).foldlM folder.enter start

def emptyFile : String := "/dev/null"

def read (folder : Folder) (path : String) : Except FileError String :=
  if path == emptyFile then .ok ""
  else do
    let location ← folder.locate path
    match folder.content? location with
    | some content => .ok content
    | none => .error .isFolder

end Folder

end CypherSql
