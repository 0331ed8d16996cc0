import CodeAtlas.Registry.Rows

/-!
# Taking in data

A batch of nodes and relationships is merged into the map.  What is known by
its id is skipped, and an edge is kept only if both its ends are on the map
after the nodes of the batch.
-/

namespace CodeAtlas

/-- What a batch added. -/
structure IngestReport where
  classesAdded : Nat := 0
  methodsAdded : Nat := 0
  standaloneAdded : Nat := 0
  edgesAdded : Nat := 0
  /-- Edges left out because an end is missing. -/
  edgesDropped : Nat := 0
deriving DecidableEq, Repr, Inhabited

namespace IngestReport

/-- Whether anything was added. -/
def changed (report : IngestReport) : Bool :=
  0 < report.classesAdded + report.methodsAdded + report.standaloneAdded + report.edgesAdded

end IngestReport

instance : Keyed Node :=
  ⟨Node.id⟩

variable {R : Type} [Scalar R]

/-- The box that a node gets, with a label and an outline. -/
def Registry.newStandalone (registry : Registry R) (node : Node) : StandaloneNode R × Pool R :=
  let metrics := registry.metrics
  let name := StandaloneNode.nameOf node
  let text := StandaloneNode.labelText node.kind name
  let width := Scalar.ceil
    (Scalar.max (metrics.textWidth registry.text text) metrics.minWidth)
  let size : Vec R := ⟨width, metrics.standaloneHeight⟩
  let (label, pool) := registry.pool.allocateLabel
    (registry.text.rasterize text { metrics.labelStyle with text := node.kind.style.text })
  let (outline, pool) := pool.allocateShape (metrics.outline size)
  ({ id := node.id
     name
     kind := node.kind
     labels := node.labels
     size
     position := .zero
     label := some label
     outline := some outline }, pool)

/-- A batch while it is taken in. -/
structure Ingest (R : Type) where
  registry : Registry R
  /-- Methods that no class has claimed yet. -/
  pending : Store Node := {}
  /-- Classes whose rows have to be refreshed. -/
  touched : List NodeId := []
  report : IngestReport := {}

namespace Ingest

/-- Takes in a node of the technical perspective: classes at once, methods when
a class claims them. -/
def technicalNode (state : Ingest R) (node : Node) : Ingest R :=
  if state.registry.containsNode node.id then state
  else match node.kind with
    | .classType =>
      { state with
        registry := { state.registry with
          classes := state.registry.classes.insert
            (.ofNode node state.registry.defaultToggles) }
        touched := state.touched ++ [node.id]
        report := { state.report with classesAdded := state.report.classesAdded + 1 } }
    | .method => { state with pending := state.pending.insert node }
    | _ => state

/-- Lets a class claim a method that is still pending. -/
def claimMethod (state : Ingest R) (relationship : Relationship) : Ingest R :=
  if relationship.kind ≠ .hasMethod || !state.registry.classes.contains relationship.source then
    state
  else match state.pending.get? relationship.target with
    | none => state
    | some node =>
      let method := Method.ofNode node relationship.source
      { registry := { state.registry with
          classes := state.registry.classes.modify relationship.source fun owner =>
            { owner with methods := owner.methods ++ [method.id] }
          methods := state.registry.methods.insert method }
        pending := state.pending.erase relationship.target
        touched := state.touched ++ [relationship.source]
        report := { state.report with methodsAdded := state.report.methodsAdded + 1 } }

/-- Refreshes the touched classes in the order of their ids. -/
def refreshTouched (state : Ingest R) : Ingest R :=
  let ids := (state.touched.mergeSort fun a b => decide (a ≤ b)).eraseDups
  { state with registry := ids.foldl Registry.refreshClass state.registry }

/-- Takes in the nodes of the technical perspective. -/
def technical (state : Ingest R) (nodes : List Node) (relationships : List Relationship) :
    Ingest R :=
  (relationships.foldl claimMethod (nodes.foldl technicalNode state)).refreshTouched

/-- Takes in a node of the architecture perspective. -/
def architectureNode (state : Ingest R) (node : Node) : Ingest R :=
  if state.registry.containsNode node.id || !node.kind.isStandalone then state
  else
    let (box, pool) := state.registry.newStandalone node
    { state with
      registry := { state.registry with
        pool
        standalone := state.registry.standalone.insert box }
      report := { state.report with standaloneAdded := state.report.standaloneAdded + 1 } }

/-- Takes in a relationship as an edge. -/
def edge (state : Ingest R) (relationship : Relationship) : Ingest R :=
  let registry := state.registry
  let kind := relationship.kind
  if !kind.isRendered || registry.edges.contains relationship.id then state
  else if !registry.containsNode relationship.source ||
      !registry.containsNode relationship.target then
    { state with report := { state.report with edgesDropped := state.report.edgesDropped + 1 } }
  else
    { state with
      registry := { registry with
        edges := registry.edges.insert
          ⟨relationship.id, kind, relationship.source, relationship.target, none⟩ }
      report := { state.report with edgesAdded := state.report.edgesAdded + 1 } }

end Ingest

namespace Registry

/-- Merges a batch into the map. -/
def addData (registry : Registry R) (nodes : List Node) (relationships : List Relationship) :
    IngestReport × Registry R :=
  let state : Ingest R := { registry }
  let state := match registry.perspective with
    | .technical => state.technical nodes relationships
    | .architecture => nodes.foldl Ingest.architectureNode state
  let state := relationships.foldl Ingest.edge state
  (state.report, state.registry)

/-- Replaces everything on the map by a batch. -/
def setData (registry : Registry R) (nodes : List Node) (relationships : List Relationship) :
    IngestReport × Registry R :=
  registry.clear.addData nodes relationships

end Registry

end CodeAtlas
