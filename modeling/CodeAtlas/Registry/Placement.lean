import CodeAtlas.Geometry.Curve
import CodeAtlas.Layout.Tree
import CodeAtlas.Registry.Basic

/-!
# Where things are

Boxes, headers and rows, what the layout has to place, and the lines of
edges.
-/

namespace CodeAtlas

variable {R : Type} [Scalar R]

/-- The line of an edge between two rectangles.  Within one box it loops on the
right; else it joins the sides that face each other. -/
def routeEdge (source target : Rect R) (sameOwner : Bool) : List (Vec R) :=
  if sameOwner then
    let start := source.rightCenter
    let finish := target.rightCenter
    let reach := Scalar.max start.x finish.x + 24.0
    [start, ⟨reach, start.y⟩, ⟨reach, finish.y⟩, finish]
  else if source.max.x ≤ target.min.x then [source.rightCenter, target.leftCenter]
  else if target.max.x ≤ source.min.x then [source.leftCenter, target.rightCenter]
  else if source.center.y ≤ target.center.y then [source.bottomCenter, target.topCenter]
  else [source.topCenter, target.bottomCenter]

namespace Registry

/-- The boxes that the layout has to place. -/
def layoutNodes (registry : Registry R) : List (LayoutNode R) :=
  (registry.classes.items.map fun node => ⟨node.id, node.size.x, node.size.y⟩) ++
    registry.standalone.items.map fun node => ⟨node.id, node.size.x, node.size.y⟩

/-- The box that an id belongs to: methods belong to their class. -/
def layoutOwner (registry : Registry R) (id : NodeId) : Option NodeId :=
  if registry.classes.contains id || registry.standalone.contains id then some id
  else (registry.methods.get? id).map Method.classId

/-- The edges between boxes. -/
def layoutEdges (registry : Registry R) : List LayoutEdge :=
  registry.edges.items.filterMap fun edge => do
    pure ⟨← registry.layoutOwner edge.source, ← registry.layoutOwner edge.target, edge.kind⟩

/-- Moves one box. -/
def moveTo (registry : Registry R) (id : NodeId) (position : Vec R) : Registry R :=
  if registry.classes.contains id then
    { registry with classes := registry.classes.modify id fun node => { node with position } }
  else
    { registry with
      standalone := registry.standalone.modify id fun node => { node with position } }

/-- Moves boxes to their positions. -/
def applyPositions (registry : Registry R) (positions : Positions R) : Registry R :=
  positions.foldl (fun registry (id, position) => registry.moveTo id position) registry

/-- The header of a class. -/
def headerRect (registry : Registry R) (classId : NodeId) : Option (Rect R) :=
  (registry.classes.get? classId).map fun node =>
    .ofPosSize node.rect.min ⟨node.rect.width, registry.metrics.headerHeight⟩

/-- The row of a method, if it is shown. -/
def methodRowRect (registry : Registry R) (methodId : NodeId) : Option (Rect R) := do
  let method ← registry.methods.get? methodId
  if method.visible then
    let index ← (registry.visibleMethods method.classId).findIdx? (·.id == methodId)
    let rect := (← registry.classes.get? method.classId).rect
    pure (.ofPosSize
      ⟨rect.min.x,
        rect.min.y + registry.metrics.headerHeight + Scalar.ofNat index * registry.metrics.rowHeight⟩
      ⟨rect.width, registry.metrics.rowHeight⟩)
  else none

/-- Where edges attach: the row of a method, the header of its class if the row
is hidden, or the whole box. -/
def anchorRect (registry : Registry R) (id : NodeId) : Option (Rect R) :=
  match registry.classes.get? id with
  | some node => some node.rect
  | none =>
    match registry.standalone.get? id with
    | some node => some node.rect
    | none =>
      match registry.methods.get? id with
      | none => none
      | some method =>
        match registry.methodRowRect id with
        | some row => some row
        | none => registry.headerRect method.classId

/-- The least rectangle around all boxes. -/
def bounds (registry : Registry R) : Option (Rect R) :=
  Rect.unionAll
    (registry.classes.items.map ClassNode.rect ++ registry.standalone.items.map StandaloneNode.rect)

/-- The line of an edge between the current boxes. -/
def route (registry : Registry R) (edge : Edge) : Option (List (Vec R)) := do
  let source ← registry.anchorRect edge.source
  let target ← registry.anchorRect edge.target
  pure (routeEdge source target
    (registry.layoutOwner edge.source == registry.layoutOwner edge.target))

/-- Routes edges one after the other. -/
def routeAll (registry : Registry R) : List Edge → Pool R → List Edge × Pool R
  | [], pool => ([], pool)
  | edge :: rest, pool =>
    match registry.route edge with
    | none =>
      let (rest, pool) := registry.routeAll rest pool
      (edge :: rest, pool)
    | some points =>
      let (geometry, pool) := pool.upsertShape edge.geometry points
      let (rest, pool) := registry.routeAll rest pool
      ({ edge with geometry := some geometry } :: rest, pool)

/-- Routes every edge between the current boxes. -/
def updateEdgeGeometry (registry : Registry R) : Registry R :=
  let (edges, pool) := registry.routeAll registry.edges.items registry.pool
  { registry with edges := ⟨edges⟩, pool }

/-- The line of an edge as it was routed last. -/
def edgePath (registry : Registry R) (edge : Edge) : Option (List (Vec R)) :=
  edge.geometry.bind registry.pool.shape?

end Registry

end CodeAtlas
