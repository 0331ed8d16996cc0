import CodeAtlas.Json.Schema
import CodeAtlas.Model.Kind

/-!
# Payloads

A payload is what a graph query answers with: nodes and relationships as they
arrive, before anything is drawn.
-/

namespace CodeAtlas

abbrev NodeId : Type := String

abbrev EdgeId : Type := String

/-- A node of a query's answer. -/
structure Node where
  id : NodeId
  labels : List String
  properties : Json.Fields

instance : Inhabited Node :=
  ⟨⟨"", [], []⟩⟩

namespace Node

def kind (node : Node) : NodeKind :=
  .ofLabels node.labels

/-- A property that is a text with something in it. -/
def text? (node : Node) (key : String) : Option String :=
  ((node.properties.get? key).bind Json.Value.text?).filter (· ≠ "")

/-- The number spelled by decimal digits with an optional plus sign, below
`2 ^ 32`. -/
def numeral? (text : List Char) : Option Nat :=
  let digits := match text with
    | '+' :: rest => rest
    | _ => text
  if digits.isEmpty || !digits.all (fun c => '0' ≤ c && c ≤ '9') then none
  else
    let value := digits.foldl (fun value c => value * 10 + (c.toNat - 48)) 0
    if value < Nat.pow 2 32 then some value else none

/-- A property that is a number below `2 ^ 32`, or a text that spells one. -/
def number? (node : Node) (key : String) : Option Nat :=
  match node.properties.get? key with
  | some (.number (.whole value)) =>
    if 0 ≤ value ∧ value < Int.pow 2 32 then some value.toNat else none
  | some (.string text) => numeral? (Text.trimChars text.toList)
  | _ => none

/-- The name, else the full name, else the id. -/
def displayName (node : Node) : String :=
  ((node.text? "name").or (node.text? "full_name")).getD node.id

/-- How a node is read. -/
def schema : Json.Schema Node where
  title := "struct GraphNode"
  start := default
  fields := [
    .required "id" .string fun value node => { node with id := value },
    .defaulted "labels" (.list .string) fun value node => { node with labels := value },
    .defaulted "properties" .object fun value node => { node with properties := value }]

end Node

/-- A relationship of a query's answer. -/
structure Relationship where
  id : EdgeId
  type : String
  source : NodeId
  target : NodeId
  properties : Json.Fields

instance : Inhabited Relationship :=
  ⟨⟨"", "", "", "", []⟩⟩

namespace Relationship

def kind (relationship : Relationship) : EdgeKind :=
  .ofType relationship.type

/-- How a relationship is read. -/
def schema : Json.Schema Relationship where
  title := "struct GraphRelationship"
  start := default
  fields := [
    .required "id" .string fun value edge => { edge with id := value },
    .required "type" .string fun value edge => { edge with type := value },
    .required "start_node_id" .string fun value edge => { edge with source := value },
    .required "end_node_id" .string fun value edge => { edge with target := value },
    .defaulted "properties" .object fun value edge => { edge with properties := value }]

end Relationship

/-- The answer of a query. -/
structure Payload where
  nodes : List Node
  relationships : List Relationship

instance : Inhabited Payload :=
  ⟨⟨[], []⟩⟩

namespace Payload

/-- How a payload is read; relationships may also be called edges. -/
def schema : Json.Schema Payload where
  title := "struct GraphPayload"
  start := default
  fields := [
    .defaulted "nodes" (.list Node.schema.decoder) fun value payload =>
      { payload with nodes := value },
    { Json.Field.defaulted "relationships" (.list Relationship.schema.decoder)
        (fun value (payload : Payload) => { payload with relationships := value }) with
      aliases := ["edges"] }]

/-- The message for a payload of the wrong shape. -/
def errorMessage (cause : Json.Mismatch) : String :=
  "invalid graph payload: " ++ cause.message

/-- Reads a payload from the pieces of a file. -/
def ofPieces (text : List Text.Piece) : Except Json.Error Payload :=
  schema.decoder.run text

/-- Reads a payload from a text. -/
def ofText (text : String) : Except Json.Error Payload :=
  ofPieces (Text.Piece.ofString text)

end Payload

end CodeAtlas
