import CodeAtlas.Json.Schema

/-!
# Member toggles

Which method rows a class shows, and whether rows show arguments.
-/

namespace CodeAtlas

/-- The switches of a class. -/
inductive Toggle where
  | publicMembers
  | privateMembers
  | constructors
  | arguments
deriving DecidableEq, Repr, Inhabited

namespace Toggle

def all : List Toggle :=
  [publicMembers, privateMembers, constructors, arguments]

def name : Toggle → String
  | publicMembers => "Public"
  | privateMembers => "Private"
  | constructors => "Constructors"
  | arguments => "Arguments"

/-- Reads a toggle by its name. -/
def decoder : Json.Decoder Toggle :=
  Json.Variant.decoder (all.map fun toggle => ⟨toggle.name, .bare toggle⟩)

end Toggle

/-- The position of every switch of a class. -/
structure Toggles where
  showPublic : Bool := true
  /-- Governs private, protected and package members. -/
  showPrivate : Bool := true
  showConstructors : Bool := true
  showArguments : Bool := false
deriving DecidableEq, Repr, Inhabited

namespace Toggles

def get (toggles : Toggles) : Toggle → Bool
  | .publicMembers => toggles.showPublic
  | .privateMembers => toggles.showPrivate
  | .constructors => toggles.showConstructors
  | .arguments => toggles.showArguments

def set (toggles : Toggles) (toggle : Toggle) (enabled : Bool) : Toggles :=
  match toggle with
  | .publicMembers => { toggles with showPublic := enabled }
  | .privateMembers => { toggles with showPrivate := enabled }
  | .constructors => { toggles with showConstructors := enabled }
  | .arguments => { toggles with showArguments := enabled }

/-- How toggles are read, over the toggles that hold where none are given. -/
def schemaOver (start : Toggles) : Json.Schema Toggles where
  title := "struct MemberToggles"
  start := start
  fields := [
    .defaulted "show_public" .boolean fun value toggles => { toggles with showPublic := value },
    .defaulted "show_private" .boolean fun value toggles => { toggles with showPrivate := value },
    .defaulted "show_constructors" .boolean fun value toggles =>
      { toggles with showConstructors := value },
    .defaulted "show_arguments" .boolean fun value toggles =>
      { toggles with showArguments := value }]

/-- How toggles are read. -/
def schema : Json.Schema Toggles :=
  schemaOver {}

end Toggles

end CodeAtlas
