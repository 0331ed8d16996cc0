import CodeAtlas.Text.Blank

/-!
# Path names

A path name keeps the spelling it was given, and two spellings name the same
place when they agree on the root mark and on the named parts.  Repeated
slashes, a slash at the end, and single dots after the first part do not count.
-/

namespace CodeAtlas

/-- A path as it was spelled. -/
structure PathName where
  text : String
deriving DecidableEq, Repr, Inhabited

namespace PathName

/-- What a path says apart from spelling. -/
structure Parts where
  /-- Starts at the root. -/
  rooted : Bool
  /-- Starts with a single dot. -/
  dotted : Bool
  /-- The named parts, parent marks included. -/
  names : List (List Char)
deriving DecidableEq, Repr

/-- The parts of a path. -/
def parts (path : PathName) : Parts :=
  let pieces := Text.splitChars '/' path.text.toList
  { rooted := path.text.toList.head? == some '/'
    dotted := pieces.head? == some ['.']
    names := pieces.filter fun piece => piece != [] && piece != ['.'] }

/-- Whether two paths name the same place. -/
def same (a b : PathName) : Bool :=
  a.parts == b.parts

/-- A reversed path without the slashes and single dots that end it. -/
def dropTail : List Char → List Char
  | '/' :: rest => dropTail rest
  | '.' :: '/' :: rest => dropTail rest
  | chars => chars

/-- The last named part, reversed, unless it is a parent or single-dot mark. -/
def reversedName? (path : PathName) : Option (List Char) :=
  let name := (dropTail path.text.toList.reverse).takeWhile (· != '/')
  if name == [] || name == ['.'] || name == ['.', '.'] then none else some name

/-- The reversed extension of a reversed file name: what stands after its last
dot, unless that dot is its first character. -/
def reversedExtension? (name : List Char) : Option (List Char) :=
  match name.dropWhile (· != '.') with
  | [] => none
  | [_] => none
  | _ => some (name.takeWhile (· != '.'))

/-- The extension of the file name. -/
def extension? (path : PathName) : Option String :=
  (path.reversedName?.bind reversedExtension?).map fun chars => String.ofList chars.reverse

/-- The path with the given extension on its file name; a path without a file
name is kept. -/
def withExtension (path : PathName) (extension : String) : PathName :=
  match path.reversedName? with
  | none => path
  | some name =>
    let kept := dropTail path.text.toList.reverse
    let stem := match reversedExtension? name with
      | some ext => kept.drop (ext.length + 1)
      | none => kept
    ⟨String.ofList stem.reverse ++ "." ++ extension⟩

/-- The path with the given extension unless it has one. -/
def ensureExtension (path : PathName) (extension : String) : PathName :=
  if path.extension?.isSome then path else path.withExtension extension

end PathName

end CodeAtlas
