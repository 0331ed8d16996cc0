import CodeAtlas.Decimal.Style
import CodeAtlas.Text.Quoted

/-!
# Reading errors

A text is refused because it ends too early, because it is not JSON, or
because it is JSON of the wrong shape.  Only the last kind has a message.
-/

namespace CodeAtlas.Json

/-- What was found where something else was expected. -/
inductive Found where
  | integer (value : Int)
  | real (value : Float)
  | text (value : String)
  | boolean (value : Bool)
  | null
  | sequence
  | map
  | unitVariant

/-- Why a JSON value does not fit. -/
inductive Mismatch where
  | missingField (name : String)
  | duplicateField (name : String)
  | unknownVariant (name : String) (known : List String)
  | invalidType (found : Found) (expected : String)
  | invalidValue (found : Found) (expected : String)
  | invalidLength (length : Nat) (expected : String)

/-- Why a text is refused. -/
inductive Error where
  | ended
  | malformed
  | mismatch (cause : Mismatch)

/-- Double-precision numbers in documents: positional from `1e-5` to below
`1e16`, whole numbers with `.0`, and signed powers of ten. -/
def doubleStyle : Decimal.Style :=
  ⟨some (-5, 15), true, true, .even⟩

/-- A word between back quotes. -/
def ticked (word : String) : String :=
  "\x60" ++ word ++ "\x60"

namespace Found

def message : Found → String
  | integer value => "integer " ++ ticked (toString value)
  | real value => "floating point " ++ ticked (doubleStyle.double value)
  | text value => "string " ++ Text.quoted value
  | boolean value => "boolean " ++ ticked (if value then "true" else "false")
  | null => "null"
  | sequence => "sequence"
  | map => "map"
  | unitVariant => "unit variant"

end Found

namespace Mismatch

/-- The list of known names in a message. -/
def knownNames : List String → String
  | [] => "there are no variants"
  | [only] => "expected " ++ ticked only
  | [one, other] => "expected " ++ ticked one ++ " or " ++ ticked other
  | names => "expected one of " ++ String.intercalate ", " (names.map ticked)

def message : Mismatch → String
  | missingField name => "missing field " ++ ticked name
  | duplicateField name => "duplicate field " ++ ticked name
  | unknownVariant name known => "unknown variant " ++ ticked name ++ ", " ++ knownNames known
  | invalidType found expected => "invalid type: " ++ found.message ++ ", expected " ++ expected
  | invalidValue found expected => "invalid value: " ++ found.message ++ ", expected " ++ expected
  | invalidLength length expected =>
    "invalid length " ++ toString length ++ ", expected " ++ expected

end Mismatch

end CodeAtlas.Json
