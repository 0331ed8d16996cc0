import CodeAtlas.Text.PathName
import CodeAtlas.Text.Piece

/-!
# Files and folders

A program sees files through a reader.  A folder is a reader over files that
are held in memory: paths are walked from part to part, a part of two dots goes
up, and nothing is known of what lies outside.
-/

namespace CodeAtlas

/-- Why a file cannot be read. -/
inductive ReadFailure where
  | missing
  /-- A folder where a file is wanted. -/
  | folder
  /-- A file where a folder is wanted. -/
  | notFolder
  | nameTooLong
  /-- A zero character in the path. -/
  | unusableName
  /-- Bytes that spell no text where a text is wanted. -/
  | notText
deriving DecidableEq, Repr

def ReadFailure.message : ReadFailure → String
  | missing => "No such file or directory (os error 2)"
  | folder => "Is a directory (os error 21)"
  | notFolder => "Not a directory (os error 20)"
  | nameTooLong => "File name too long (os error 36)"
  | unusableName => "file name contained an unexpected NUL byte"
  | notText => "stream did not contain valid UTF-8"

/-- Reads files by their paths. -/
abbrev FileReader :=
  PathName → Except ReadFailure (List Text.Piece)

/-- Files that are held in memory. -/
structure Folder where
  files : List (PathName × String)

namespace Folder

/-- Where a walk stands. -/
inductive Place where
  /-- In the folder, below the named parts. -/
  | inside (names : List (List Char))
  | outside
deriving DecidableEq, Repr

/-- The number of bytes that spell the characters. -/
def byteCount (chars : List Char) : Nat :=
  chars.foldl (fun size c => size + c.utf8Size) 0

/-- The content of the file below the named parts. -/
def file? (folder : Folder) (names : List (List Char)) : Option String :=
  (folder.files.find? fun (path, _) => path.parts.names == names).map Prod.snd

/-- Whether some file lies below the named parts. -/
def hasBelow (folder : Folder) (names : List (List Char)) : Bool :=
  folder.files.any fun (path, _) =>
    names.isPrefixOf path.parts.names && names.length < path.parts.names.length

/-- Walks along the parts of a path and reads the file at its end. -/
def walk (folder : Folder) : Place → List (List Char) → Except ReadFailure String
  | _, [] => .error .folder
  | place, [] :: rest => walk folder place rest
  | place, ['.'] :: rest => walk folder place rest
  | .outside, ['.', '.'] :: rest => walk folder .outside rest
  | .inside names, ['.', '.'] :: rest =>
    walk folder (if names.isEmpty then .outside else .inside names.dropLast) rest
  | .outside, name :: _ => .error (if 255 < byteCount name then .nameTooLong else .missing)
  | .inside names, name :: rest =>
    if 255 < byteCount name then .error .nameTooLong
    else
      match folder.file? (names ++ [name]) with
      | some text => if rest.isEmpty then .ok text else .error .notFolder
      | none =>
        if folder.hasBelow (names ++ [name]) then walk folder (.inside (names ++ [name])) rest
        else .error .missing

/-- Where the walk along a path starts. -/
def start (path : PathName) : Place :=
  if path.parts.rooted then .outside else .inside []

/-- Reads a file. -/
def read (folder : Folder) (path : PathName) : Except ReadFailure String :=
  let chars := path.text.toList
  if chars.isEmpty then .error .missing
  else if chars.contains '\x00' then .error .unusableName
  else if 4096 ≤ byteCount chars then .error .nameTooLong
  else folder.walk (start path) (Text.splitChars '/' chars)

/-- The folder as a reader. -/
def reader (folder : Folder) : FileReader := fun path =>
  (folder.read path).map Text.Piece.ofString

/-- Whether a walk ended at a folder. -/
def endsAtFolder : Except ReadFailure String → Bool
  | .error .folder => true
  | _ => false

/-- Whether a file can be made, or replaced, where reading ended this way. -/
def leavesRoom : Except ReadFailure String → Bool
  | .ok _ | .error .missing => true
  | _ => false

/-- Whether a file can be written at a path: its last part is a name, what
stands before it is a folder, the path itself is none, and no name is too
long. -/
def admits (folder : Folder) (path : PathName) : Bool :=
  let parts := Text.splitChars '/' path.text.toList
  let last := parts.getLastD []
  !(last == [] || last == ['.'] || last == ['.', '.']) &&
    endsAtFolder (folder.walk (start path) parts.dropLast) && leavesRoom (folder.read path)

end Folder

end CodeAtlas
