import CodeAtlas.Json.Scan

/-!
# JSON values

A value read without any expectation of its shape.  The fields of an object are
kept in the order of their names, and of two fields of one name the later one
stays.
-/

namespace CodeAtlas.Json

inductive Value where
  | null
  | boolean (value : Bool)
  | number (value : Number)
  | string (value : String)
  | array (items : List Value)
  | object (fields : List (String × Value))

instance : Inhabited Value :=
  ⟨.null⟩

/-- Fields of an object, in ascending order of names. -/
abbrev Fields : Type :=
  List (String × Value)

namespace Fields

/-- Puts a field in its place, over an earlier one of the same name. -/
def insert (fields : Fields) (name : String) (value : Value) : Fields :=
  match fields with
  | [] => [(name, value)]
  | (other, old) :: rest =>
    if name = other then (name, value) :: rest
    else if name < other then (name, value) :: (other, old) :: rest
    else (other, old) :: insert rest name value

/-- The value of a field. -/
def get? (fields : Fields) (name : String) : Option Value :=
  List.lookup name fields

/-- Fields given in any order. -/
def ofList (entries : List (String × Value)) : Fields :=
  entries.foldl (fun fields (name, value) => fields.insert name value) []

end Fields

namespace Value

def text? : Value → Option String
  | string value => some value
  | _ => none

end Value

end CodeAtlas.Json
