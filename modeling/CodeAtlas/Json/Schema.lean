import CodeAtlas.Json.Skip

/-!
# Records and variants

A record is written as an object of named fields, or as the list of its fields
in order.  Fields of unknown names are ignored, a field given twice is an
error, and a field that may be left out keeps the value of the schema's
starting record.

A variant is written as its bare name, or as an object whose only field is the
name with the content of the variant.
-/

namespace CodeAtlas.Json

open CodeAtlas.Text (Piece)

/-- A field of a record. -/
structure Field (α : Type) where
  name : String
  /-- Further names under which the field may be given. -/
  aliases : List String
  mandatory : Bool
  /-- Reads the value and puts it into the record. -/
  read : Decoder (α → α)

namespace Field

variable {α β : Type}

/-- A field that must be given. -/
def required (name : String) (decoder : Decoder β) (put : β → α → α) : Field α :=
  ⟨name, [], true, decoder.map put⟩

/-- A field that may be left out. -/
def defaulted (name : String) (decoder : Decoder β) (put : β → α → α) : Field α :=
  ⟨name, [], false, decoder.map put⟩

/-- Whether the field may be given under this name. -/
def answersTo (field : Field α) (name : String) : Bool :=
  field.name == name || field.aliases.contains name

end Field

/-- How a record is read. -/
structure Schema (α : Type) where
  /-- What the record is called in messages. -/
  title : String
  /-- The record before any field is read. -/
  start : α
  fields : List (Field α)

namespace Schema

variable {α : Type}

/-- Reads the value of one field of an object into the record, which comes with
the names of the fields read so far. -/
def readField (schema : Schema α) (room : Room) (state : α × List String) (name : String)
    (text : List Piece) : Except Error ((α × List String) × List Piece) :=
  match schema.fields.find? (·.answersTo name) with
  | none => do
      let (_, rest) ← Decoder.ignored room (← colon text)
      .ok (state, rest)
  | some field =>
    if state.2.contains field.name then .error (.mismatch (.duplicateField field.name))
    else do
      let (put, rest) ← field.read room (← colon text)
      .ok ((put state.1, field.name :: state.2), rest)

/-- Reads the fields of an object after its opening brace. -/
def readObject (schema : Schema α) (room : Room) (text : List Piece) :
    Except Error (α × List Piece) := do
  let ((record, seen), rest) ←
    Json.fields (schema.readField room) room.rounds true (schema.start, []) text
  match schema.fields.find? fun field => field.mandatory && !seen.contains field.name with
  | some field => .error (.mismatch (.missingField field.name))
  | none => .ok (record, ← closeObject rest)

/-- The record and its number of fields in words. -/
def lengthTitle (schema : Schema α) : String :=
  schema.title ++ " with " ++ toString schema.fields.length ++
    (if schema.fields.length = 1 then " element" else " elements")

/-- Reads the remaining fields from a list; `index` counts those read. -/
def readItems (schema : Schema α) (room : Room) :
    List (Field α) → Nat → α → List Piece → Except Error (α × List Piece)
  | [], _, record, text => do .ok (record, ← closeList text)
  | field :: fields, index, record, text => do
      match ← nextItem (index == 0) text with
      | none =>
        if field.mandatory then
          .error (.mismatch (.invalidLength index schema.lengthTitle))
        else readItems schema room fields (index + 1) record text
      | some text =>
        let (put, rest) ← field.read room text
        readItems schema room fields (index + 1) (put record) rest

/-- Reads a record. -/
def decoder (schema : Schema α) : Decoder α := fun room text =>
  match skipSpace text with
  | [] => .error .ended
  | .char '[' :: rest =>
    match room.depth with
    | 0 => .error .malformed
    | depth + 1 => schema.readItems ⟨depth, room.rounds⟩ schema.fields 0 schema.start rest
  | .char '\x7b' :: rest =>
    match room.depth with
    | 0 => .error .malformed
    | depth + 1 => schema.readObject ⟨depth, room.rounds⟩ rest
  | rest => .error (refuse schema.title rest)

end Schema

/-- What a variant carries. -/
inductive VariantBody (α : Type) where
  | bare (value : α)
  | content (decoder : Decoder α)

/-- A named variant. -/
structure Variant (α : Type) where
  name : String
  body : VariantBody α

namespace Variant

variable {α : Type}

/-- The variant of a name, or the error that lists the known ones. -/
def find (variants : List (Variant α)) (name : String) : Except Error (Variant α) :=
  match variants.find? (·.name == name) with
  | some variant => .ok variant
  | none => .error (.mismatch (.unknownVariant name (variants.map Variant.name)))

/-- Reads one of the given variants. -/
def decoder (variants : List (Variant α)) : Decoder α := fun room text =>
  match skipSpace text with
  | [] => .error .ended
  | .char '"' :: rest => do
      let (name, rest) ← string rest
      match (← find variants name).body with
      | .bare value => .ok (value, rest)
      | .content _ => .error (.mismatch (.invalidType .unitVariant "struct variant"))
  | .char '\x7b' :: rest =>
    match room.depth with
    | 0 => .error .malformed
    | depth + 1 => do
        let inner : Room := ⟨depth, room.rounds⟩
        let (name, rest) ← Decoder.stringAs "variant identifier" inner rest
        let variant ← find variants name
        let rest ← colon rest
        let (value, rest) ← match variant.body with
          | .bare value => Decoder.null.map (fun _ => value) inner rest
          | .content decoder => decoder inner rest
        .ok (value, ← closeObject rest)
  | _ => .error .malformed

end Variant

end CodeAtlas.Json
