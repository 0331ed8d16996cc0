import CodeAtlas.Json.Value

/-!
# Written documents

What the program writes as JSON: the fields of a record in the order they are
given, numbers with the fewest digits that read back, numbers without digits as
`null`.  A document is written on one line or indented by two blanks.
-/

namespace CodeAtlas.Json

/-- Single-precision numbers in documents: positional from `1e-6` to below
`1e13`, whole numbers with `.0`, and signed powers of ten. -/
def singleStyle : Decimal.Style :=
  ⟨some (-6, 12), true, true, .even⟩

inductive Document where
  | null
  | boolean (value : Bool)
  | integer (value : Int)
  | single (value : Float32)
  | double (value : Float)
  | string (value : String)
  | list (items : List Document)
  | record (fields : List (String × Document))

instance : Inhabited Document :=
  ⟨.null⟩

/-- The hexadecimal digit of a number below sixteen. -/
def hexChar (value : Nat) : Char :=
  Char.ofNat (if value < 10 then 48 + value else 87 + value)

/-- How a character is written inside a string. -/
def writtenChar (c : Char) : List Char :=
  if c = '"' then ['\\', '"']
  else if c = '\\' then ['\\', '\\']
  else if c = '\n' then ['\\', 'n']
  else if c = '\r' then ['\\', 'r']
  else if c = '\t' then ['\\', 't']
  else if c = '\x08' then ['\\', 'b']
  else if c = '\x0c' then ['\\', 'f']
  else if c.toNat < 0x20 then
    ['\\', 'u', '0', '0', hexChar (c.toNat / 16), hexChar (c.toNat % 16)]
  else [c]

/-- A string as it is written. -/
def writtenString (text : String) : String :=
  "\"" ++ String.ofList (text.toList.flatMap writtenChar) ++ "\""

namespace Document

/-- The text of a document without items or fields. -/
def scalar : Document → String
  | boolean value => if value then "true" else "false"
  | integer value => toString value
  | single value => if value.isNaN || value.isInf then "null" else singleStyle.single value
  | double value => if value.isNaN || value.isInf then "null" else doubleStyle.double value
  | string value => writtenString value
  | _ => "null"

mutual

/-- The document on one line. -/
def compact : Document → String
  | list items => "[" ++ String.intercalate "," (compactItems items) ++ "]"
  | record fields => "\x7b" ++ String.intercalate "," (compactFields fields) ++ "\x7d"
  | other => other.scalar

/-- The items of a list, each on one line. -/
def compactItems : List Document → List String
  | [] => []
  | item :: items => compact item :: compactItems items

/-- The fields of a record, each on one line. -/
def compactFields : List (String × Document) → List String
  | [] => []
  | (name, value) :: fields => (writtenString name ++ ":" ++ compact value) :: compactFields fields

end

/-- A line break and the blanks of the given level. -/
def lineBreak (level : Nat) : String :=
  "\n" ++ String.ofList (List.replicate (2 * level) ' ')

mutual

/-- The document with one item or field a line, at the given level of
indentation. -/
def indented (level : Nat) : Document → String
  | list [] => "[]"
  | list (item :: items) =>
    "[" ++ String.intercalate "," (indentedItems (level + 1) (item :: items)) ++
      lineBreak level ++ "]"
  | record [] => "\x7b\x7d"
  | record (field :: fields) =>
    "\x7b" ++ String.intercalate "," (indentedFields (level + 1) (field :: fields)) ++
      lineBreak level ++ "\x7d"
  | other => other.scalar

/-- The items of a list, each on a line of its own. -/
def indentedItems (level : Nat) : List Document → List String
  | [] => []
  | item :: items => (lineBreak level ++ indented level item) :: indentedItems level items

/-- The fields of a record, each on a line of its own. -/
def indentedFields (level : Nat) : List (String × Document) → List String
  | [] => []
  | (name, value) :: fields =>
    (lineBreak level ++ writtenString name ++ ": " ++ indented level value) ::
      indentedFields level fields

end

/-- The document over several lines. -/
def pretty (document : Document) : String :=
  document.indented 0

end Document

/-- The document that spells a number. -/
def Number.document : Number → Document
  | whole value => .integer value
  | real value => .double value

mutual

/-- The document that spells a value. -/
def Value.document : Value → Document
  | .null => .null
  | .boolean value => .boolean value
  | .number value => value.document
  | .string value => .string value
  | .array items => .list (Value.itemDocuments items)
  | .object fields => .record (Value.fieldDocuments fields)

/-- The documents that spell the items of an array. -/
def Value.itemDocuments : List Value → List Document
  | [] => []
  | item :: items => Value.document item :: Value.itemDocuments items

/-- The documents that spell the fields of an object. -/
def Value.fieldDocuments : List (String × Value) → List (String × Document)
  | [] => []
  | (name, value) :: fields => (name, Value.document value) :: Value.fieldDocuments fields

end

end CodeAtlas.Json
