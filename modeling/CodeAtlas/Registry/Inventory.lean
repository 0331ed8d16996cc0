import CodeAtlas.Camera
import CodeAtlas.Registry.Ingest
import CodeAtlas.Registry.Placement
import CodeAtlas.Registry.Remove
import CodeAtlas.Registry.Table

/-!
# The registry as it is kept

Classes, standalone nodes and edges are on shelves, which give them an order;
methods are in a table, for their order is that of the rows of their classes.
The operations are those of the registry, spelled out on shelves and tables.
-/

namespace CodeAtlas

structure Inventory (R : Type) where
  perspective : Perspective
  classes : Shelf (ClassNode R)
  methods : Table Method
  standalone : Shelf (StandaloneNode R)
  edges : Shelf Edge
  pool : Pool R
  text : TextMetrics R
  metrics : NodeMetrics R
  defaultToggles : Toggles

variable {R : Type} [Scalar R]

namespace Inventory

def create (metrics : NodeMetrics R) (toggles : Toggles) (text : TextMetrics R) : Inventory R :=
  { perspective := .technical
    classes := {}
    methods := {}
    standalone := {}
    edges := {}
    pool := {}
    text
    metrics
    defaultToggles := toggles }

/-- The map as it is read in order. -/
def view (inventory : Inventory R) : Registry R :=
  { inventory with
    classes := ⟨inventory.classes.items⟩
    methods := ⟨inventory.methods.values⟩
    standalone := ⟨inventory.standalone.items⟩
    edges := ⟨inventory.edges.items⟩ }

/-- The pool, the text and the metrics, with nothing on the map. -/
def blank (inventory : Inventory R) : Registry R :=
  { inventory with classes := {}, methods := {}, standalone := {}, edges := {} }

/-- The inventory, unless it holds something too large to be held. -/
def checked (inventory : Inventory R) : Except Fault (Inventory R) :=
  if inventory.pool.fits then .ok inventory else .error .oversized

def containsNode (inventory : Inventory R) (id : NodeId) : Bool :=
  inventory.classes.contains id || inventory.methods.contains id ||
    inventory.standalone.contains id

/-! ## Emptying -/

def clear (inventory : Inventory R) : Inventory R :=
  { inventory with
    classes := {}
    methods := {}
    standalone := {}
    edges := {}
    pool := inventory.pool.clear }

def setPerspective (inventory : Inventory R) (perspective : Perspective) : Bool × Inventory R :=
  if inventory.perspective = perspective then (false, inventory)
  else (true, { inventory.clear with perspective })

/-! ## Rows -/

/-- The rows of a class while they are refreshed. -/
structure Rows (R : Type) where
  methods : Table Method
  pool : Pool R
  width : R
  visibleRows : Nat

def refreshRow (inventory : Inventory R) (node : ClassNode R) (state : Rows R) (id : NodeId) :
    Rows R :=
  match state.methods.get? id with
  | none => state
  | some method =>
    let method := { method with visible := method.isShown node.toggles node.focusedMethod }
    if method.visible then
      let (method, pool) := inventory.blank.labelRow node state.pool method
      { methods := state.methods.modify id fun _ => method
        pool
        width := Scalar.max state.width
          (inventory.metrics.textWidth inventory.text method.labelText)
        visibleRows := state.visibleRows + 1 }
    else
      { state with methods := state.methods.modify id fun _ => method }

def refreshRows (inventory : Inventory R) (node : ClassNode R) (pool : Pool R) : Rows R :=
  let metrics := inventory.metrics
  let width := Scalar.max (metrics.textWidth inventory.text node.headerText) metrics.minWidth
  node.methods.foldl (inventory.refreshRow node) ⟨inventory.methods, pool, width, 0⟩

def refreshClass (inventory : Inventory R) (classId : NodeId) : Inventory R :=
  match inventory.classes.get? classId with
  | none => inventory
  | some node =>
    let metrics := inventory.metrics
    let (headerLabel, pool) := inventory.blank.labelHeader node
    let rows := inventory.refreshRows node pool
    let size : Vec R := ⟨Scalar.ceil rows.width, metrics.classHeight rows.visibleRows⟩
    let (outline, pool) := rows.pool.upsertShape node.outline (metrics.outline size)
    { inventory with
      methods := rows.methods
      pool
      classes := inventory.classes.modify classId fun node =>
        { node with headerLabel, size, outline := some outline } }

def setToggle (inventory : Inventory R) (classId : NodeId) (toggle : Toggle) (enabled : Bool) :
    Bool × Inventory R :=
  match inventory.classes.get? classId with
  | none => (false, inventory)
  | some node =>
    if node.toggles.get toggle = enabled then (false, inventory)
    else
      let classes := inventory.classes.modify classId fun node =>
        { node with toggles := node.toggles.set toggle enabled }
      (true, { inventory with classes }.refreshClass classId)

def flipToggle (inventory : Inventory R) (classId : NodeId) (toggle : Toggle) :
    Bool × Inventory R :=
  match inventory.classes.get? classId with
  | none => (false, inventory)
  | some node => inventory.setToggle classId toggle (!node.toggles.get toggle)

def focusMethod (inventory : Inventory R) (methodId : NodeId) : Bool × Inventory R :=
  match inventory.methods.get? methodId with
  | none => (false, inventory)
  | some method =>
    match inventory.classes.get? method.classId with
    | none => (false, inventory)
    | some node =>
      if node.focusedMethod = some methodId then (false, inventory)
      else
        let classes := inventory.classes.modify method.classId fun node =>
          { node with focusedMethod := some methodId }
        (true, { inventory with classes }.refreshClass method.classId)

def restoreMethods (inventory : Inventory R) (classId : NodeId) : Bool × Inventory R :=
  match inventory.classes.get? classId with
  | none => (false, inventory)
  | some node =>
    if node.focusedMethod.isNone then (false, inventory)
    else
      let classes := inventory.classes.modify classId fun node =>
        { node with focusedMethod := none }
      (true, { inventory with classes }.refreshClass classId)

/-! ## Taking in data -/

/-- A batch while it is taken in. -/
structure Intake (R : Type) where
  inventory : Inventory R
  pending : Table Node := {}
  touched : List NodeId := []
  report : IngestReport := {}

namespace Intake

def technicalNode (state : Intake R) (node : Node) : Intake R :=
  if state.inventory.containsNode node.id then state
  else match node.kind with
    | .classType =>
      { state with
        inventory := { state.inventory with
          classes := state.inventory.classes.push node.id
            (.ofNode node state.inventory.defaultToggles) }
        touched := state.touched ++ [node.id]
        report := { state.report with classesAdded := state.report.classesAdded + 1 } }
    | .method => { state with pending := state.pending.insert node.id node }
    | _ => state

def claimMethod (state : Intake R) (relationship : Relationship) : Intake R :=
  if relationship.kind ≠ .hasMethod || !state.inventory.classes.contains relationship.source then
    state
  else match state.pending.get? relationship.target with
    | none => state
    | some node =>
      let method := Method.ofNode node relationship.source
      { inventory := { state.inventory with
          classes := state.inventory.classes.modify relationship.source fun owner =>
            { owner with methods := owner.methods ++ [method.id] }
          methods := state.inventory.methods.insert method.id method }
        pending := state.pending.remove relationship.target
        touched := state.touched ++ [relationship.source]
        report := { state.report with methodsAdded := state.report.methodsAdded + 1 } }

def technical (state : Intake R) (nodes : List Node) (relationships : List Relationship) :
    Intake R :=
  let state := relationships.foldl claimMethod (nodes.foldl technicalNode state)
  let ids := (state.touched.mergeSort fun a b => decide (a ≤ b)).eraseDups
  { state with inventory := ids.foldl refreshClass state.inventory }

def architectureNode (state : Intake R) (node : Node) : Intake R :=
  if state.inventory.containsNode node.id || !node.kind.isStandalone then state
  else
    let (box, pool) := state.inventory.blank.newStandalone node
    { state with
      inventory := { state.inventory with
        pool
        standalone := state.inventory.standalone.push node.id box }
      report := { state.report with standaloneAdded := state.report.standaloneAdded + 1 } }

def edge (state : Intake R) (relationship : Relationship) : Intake R :=
  let inventory := state.inventory
  let kind := relationship.kind
  if !kind.isRendered || inventory.edges.contains relationship.id then state
  else if !inventory.containsNode relationship.source ||
      !inventory.containsNode relationship.target then
    { state with report := { state.report with edgesDropped := state.report.edgesDropped + 1 } }
  else
    { state with
      inventory := { inventory with
        edges := inventory.edges.push relationship.id
          ⟨relationship.id, kind, relationship.source, relationship.target, none⟩ }
      report := { state.report with edgesAdded := state.report.edgesAdded + 1 } }

end Intake

def addData (inventory : Inventory R) (nodes : List Node) (relationships : List Relationship) :
    IngestReport × Inventory R :=
  let state : Intake R := { inventory }
  let state := match inventory.perspective with
    | .technical => state.technical nodes relationships
    | .architecture => nodes.foldl Intake.architectureNode state
  let state := relationships.foldl Intake.edge state
  (state.report, state.inventory)

def setData (inventory : Inventory R) (nodes : List Node) (relationships : List Relationship) :
    IngestReport × Inventory R :=
  inventory.clear.addData nodes relationships

/-! ## Removal -/

def removeEdges (inventory : Inventory R) (doomed : Edge → Bool) : Inventory R :=
  let (gone, edges) := inventory.edges.removeWhere doomed
  { inventory with
    edges
    pool := gone.foldl (fun pool edge => pool.releaseSlot edge.geometry) inventory.pool }

def removeEdgesAt (inventory : Inventory R) (ids : List NodeId) : Inventory R :=
  inventory.removeEdges fun edge => ids.contains edge.source || ids.contains edge.target

def deleteClass (inventory : Inventory R) (id : NodeId) (node : ClassNode R) : Inventory R :=
  let pool := (inventory.pool.releaseSlot node.headerLabel).releaseSlot node.outline
  let (gone, methods) := inventory.methods.removeAll node.methods
  let inventory := { inventory with
    classes := inventory.classes.remove id
    methods
    pool := gone.foldl (fun pool (method : Method) => pool.releaseSlot method.label) pool }
  inventory.removeEdgesAt (node.id :: gone.map Method.id)

def deleteMethod (inventory : Inventory R) (id : NodeId) (method : Method) : Inventory R :=
  let inventory := { inventory with
    methods := inventory.methods.remove id
    pool := inventory.pool.releaseSlot method.label
    classes := inventory.classes.modify method.classId fun owner =>
      { owner with
        methods := owner.methods.filter (· ≠ id)
        focusedMethod := owner.focusedMethod.filter (· ≠ id) } }
  (inventory.removeEdgesAt [id]).refreshClass method.classId

def deleteStandalone (inventory : Inventory R) (id : NodeId) (node : StandaloneNode R) :
    Inventory R :=
  let inventory := { inventory with
    standalone := inventory.standalone.remove id
    pool := (inventory.pool.releaseSlot node.label).releaseSlot node.outline }
  inventory.removeEdgesAt [id]

def deleteNode (inventory : Inventory R) (id : NodeId) : Bool × Inventory R :=
  match inventory.classes.get? id with
  | some node => (true, inventory.deleteClass id node)
  | none =>
    match inventory.methods.get? id with
    | some method => (true, inventory.deleteMethod id method)
    | none =>
      match inventory.standalone.get? id with
      | some node => (true, inventory.deleteStandalone id node)
      | none => (false, inventory)

def focusOnClass (inventory : Inventory R) (classId : NodeId) : Bool × Inventory R :=
  if inventory.classes.contains classId then
    let bare := inventory.removeEdges fun _ => true
    let others := bare.classes.order.filter (· ≠ classId) ++ bare.standalone.order
    (true, others.foldl (fun inventory id => (inventory.deleteNode id).2) bare)
  else (false, inventory)

/-! ## Places and lines -/

def applyPositions (inventory : Inventory R) (positions : Positions R) : Inventory R :=
  positions.foldl (fun inventory (id, position) =>
    if inventory.classes.contains id then
      { inventory with
        classes := inventory.classes.modify id fun node => { node with position } }
    else
      { inventory with
        standalone := inventory.standalone.modify id fun node => { node with position } })
    inventory

def visibleMethods (inventory : Inventory R) (classId : NodeId) : List Method :=
  match inventory.classes.get? classId with
  | some node => (node.methods.filterMap inventory.methods.get?).filter Method.visible
  | none => []

def headerRect (inventory : Inventory R) (classId : NodeId) : Option (Rect R) :=
  (inventory.classes.get? classId).map fun node =>
    .ofPosSize node.rect.min ⟨node.rect.width, inventory.metrics.headerHeight⟩

def methodRowRect (inventory : Inventory R) (methodId : NodeId) : Option (Rect R) := do
  let method ← inventory.methods.get? methodId
  if method.visible then
    let index ← (inventory.visibleMethods method.classId).findIdx? (·.id == methodId)
    let rect := (← inventory.classes.get? method.classId).rect
    let metrics := inventory.metrics
    pure (.ofPosSize
      ⟨rect.min.x, rect.min.y + metrics.headerHeight + Scalar.ofNat index * metrics.rowHeight⟩
      ⟨rect.width, metrics.rowHeight⟩)
  else none

def anchorRect (inventory : Inventory R) (id : NodeId) : Option (Rect R) :=
  match inventory.classes.get? id with
  | some node => some node.rect
  | none =>
    match inventory.standalone.get? id with
    | some node => some node.rect
    | none =>
      match inventory.methods.get? id with
      | none => none
      | some method =>
        match inventory.methodRowRect id with
        | some row => some row
        | none => inventory.headerRect method.classId

def layoutOwner (inventory : Inventory R) (id : NodeId) : Option NodeId :=
  if inventory.classes.contains id || inventory.standalone.contains id then some id
  else (inventory.methods.get? id).map Method.classId

def route (inventory : Inventory R) (edge : Edge) : Option (List (Vec R)) := do
  let source ← inventory.anchorRect edge.source
  let target ← inventory.anchorRect edge.target
  pure (routeEdge source target
    (inventory.layoutOwner edge.source == inventory.layoutOwner edge.target))

/-- Gives an edge a new line. -/
def draw (inventory : Inventory R) (id : EdgeId) (points : List (Vec R)) : Inventory R :=
  match inventory.edges.get? id with
  | none => inventory
  | some edge =>
    let (geometry, pool) := inventory.pool.upsertShape edge.geometry points
    { inventory with
      pool
      edges := inventory.edges.modify id fun edge => { edge with geometry := some geometry } }

/-- All lines are found before the first edge gets its own. -/
def updateEdgeGeometry (inventory : Inventory R) : Inventory R :=
  let routes := inventory.edges.items.filterMap fun edge =>
    (inventory.route edge).map fun points => (edge.id, points)
  routes.foldl (fun inventory (id, points) => inventory.draw id points) inventory

end Inventory

end CodeAtlas
