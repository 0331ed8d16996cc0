import CodeAtlas.Proofs.Renumber.Registry

/-!
# Renumbered maps look alike

Where things are does not depend on the numbers of resources.  Boxes are placed
and edges are routed alike, and the scene of a renumbered map is the renumbered
scene, in which the same regions can be picked.
-/

namespace CodeAtlas

variable {R : Type} [Scalar R] {f : ResourceId → ResourceId}

namespace Registry

variable (reg : Registry R)

/-! ## Boxes -/

section
omit [Scalar R]

@[simp]
theorem layoutNodes_renumber : (reg.renumber f).layoutNodes = reg.layoutNodes := by
  simp only [layoutNodes, renumber, Store.map, List.map_map]
  rfl

@[simp]
theorem layoutOwner_renumber (id : NodeId) :
    (reg.renumber f).layoutOwner id = reg.layoutOwner id := by
  simp only [layoutOwner, contains_classes_renumber, contains_standalone_renumber,
    get?_methods_renumber, Option.map_map]
  rfl

@[simp]
theorem layoutEdges_renumber : (reg.renumber f).layoutEdges = reg.layoutEdges := by
  have edges : (reg.renumber f).edges.items = reg.edges.items.map (Edge.renumber f) := rfl
  simp only [layoutEdges, edges, List.filterMap_map, layoutOwner_renumber]
  rfl

end

@[simp]
theorem bounds_renumber : (reg.renumber f).bounds = reg.bounds := by
  simp only [bounds, renumber, Store.map, List.map_map]
  rfl

omit [Scalar R] in
theorem moveTo_renumber (id : NodeId) (position : Vec R) :
    (reg.renumber f).moveTo id position = (reg.moveTo id position).renumber f := by
  have classes : (reg.renumber f).classes.modify id (fun node => { node with position }) =
      (reg.classes.modify id fun node => { node with position }).map (ClassNode.renumber f) :=
    Store.modify_map ClassNode.key_renumber reg.classes id fun _ => rfl
  have standalone : (reg.renumber f).standalone.modify id (fun node =>
      { node with position }) =
        (reg.standalone.modify id fun node => { node with position }).map
          (StandaloneNode.renumber f) :=
    Store.modify_map StandaloneNode.key_renumber reg.standalone id fun _ => rfl
  unfold moveTo
  rw [contains_classes_renumber, classes, standalone]
  split <;> rfl

omit [Scalar R] in
theorem applyPositions_renumber (positions : Positions R) :
    (reg.renumber f).applyPositions positions =
      (reg.applyPositions positions).renumber f :=
  List.foldl_hom (renumber f) fun moved (id, position) => moveTo_renumber moved id position

/-! ## Rows and lines -/

omit [Scalar R] in
theorem methodsOf_renumber (id : NodeId) :
    (reg.renumber f).methodsOf id = (reg.methodsOf id).map (Method.renumber f) := by
  unfold methodsOf
  rw [get?_classes_renumber]
  cases reg.classes.get? id with
  | none => rfl
  | some node =>
    simp only [Option.map_some, List.map_filterMap]
    congr 1
    funext methodId
    exact reg.get?_methods_renumber methodId

omit [Scalar R] in
theorem visibleMethods_renumber (id : NodeId) :
    (reg.renumber f).visibleMethods id =
      (reg.visibleMethods id).map (Method.renumber f) := by
  rw [visibleMethods, methodsOf_renumber, List.filter_map]
  rfl

@[simp]
theorem headerRect_renumber (id : NodeId) :
    (reg.renumber f).headerRect id = reg.headerRect id := by
  rw [headerRect, headerRect, get?_classes_renumber, Option.map_map]
  rfl

@[simp]
theorem methodRowRect_renumber (id : NodeId) :
    (reg.renumber f).methodRowRect id = reg.methodRowRect id := by
  unfold methodRowRect
  rw [get?_methods_renumber]
  cases reg.methods.get? id with
  | none => rfl
  | some method =>
    have visible : (method.renumber f).visible = method.visible := rfl
    have owner : (method.renumber f).classId = method.classId := rfl
    simp only [Option.map_some, Option.bind_eq_bind, Option.bind_some, visible, owner,
      visibleMethods_renumber, List.findIdx?_map, get?_classes_renumber, Option.bind_map]
    rfl

@[simp]
theorem anchorRect_renumber (id : NodeId) :
    (reg.renumber f).anchorRect id = reg.anchorRect id := by
  unfold anchorRect
  rw [get?_classes_renumber, get?_standalone_renumber, get?_methods_renumber]
  cases reg.classes.get? id with
  | some node => rfl
  | none =>
    cases reg.standalone.get? id with
    | some node => rfl
    | none =>
      cases reg.methods.get? id with
      | none => rfl
      | some method =>
        simp only [Option.map_none, Option.map_some, methodRowRect_renumber, headerRect_renumber]
        rfl

theorem route_renumber (edge : Edge) :
    (reg.renumber f).route (edge.renumber f) = reg.route edge := by
  unfold route
  simp only [anchorRect_renumber, layoutOwner_renumber]
  rfl

theorem routeAll_renumber (shifts : Shifts f) (edges : List Edge) (pool : Pool R) :
    (reg.renumber f).routeAll (edges.map (Edge.renumber f)) (pool.renumber f) =
      ((reg.routeAll edges pool).1.map (Edge.renumber f),
        (reg.routeAll edges pool).2.renumber f) := by
  induction edges generalizing pool with
  | nil => rfl
  | cons edge rest ih =>
    have geometry : (edge.renumber f).geometry = edge.geometry.map f := rfl
    simp only [List.map_cons, routeAll, route_renumber]
    cases reg.route edge with
    | none =>
      simp only [ih]
      rfl
    | some points =>
      simp only [geometry, Pool.upsertShape_renumber shifts, ih]
      rfl

theorem updateEdgeGeometry_renumber (shifts : Shifts f) :
    (reg.renumber f).updateEdgeGeometry = reg.updateEdgeGeometry.renumber f := by
  have routed : (reg.renumber f).routeAll (reg.renumber f).edges.items
      (reg.renumber f).pool = _ :=
    reg.routeAll_renumber shifts reg.edges.items reg.pool
  rw [updateEdgeGeometry, routed]
  rfl

omit [Scalar R] in
theorem edgePath_renumber (shifts : Shifts f) (edge : Edge) :
    (reg.renumber f).edgePath (edge.renumber f) = reg.edgePath edge := by
  have geometry : (edge.renumber f).geometry = edge.geometry.map f := rfl
  have pool : (reg.renumber f).pool = reg.pool.renumber f := rfl
  rw [edgePath, edgePath, geometry, pool]
  cases edge.geometry with
  | none => rfl
  | some id => exact Pool.shape?_renumber shifts reg.pool id

end Registry

/-! ## Scenes -/

def DrawKind.renumber (f : ResourceId → ResourceId) : DrawKind R → DrawKind R
  | .label resource area => .label (f resource) area
  | kind => kind

def Primitive.renumber (f : ResourceId → ResourceId) (primitive : Primitive R) : Primitive R :=
  { primitive with kind := primitive.kind.renumber f }

namespace Scene

/-- The same scene with labels under other numbers. -/
def renumber (f : ResourceId → ResourceId) (scene : Scene R) : Scene R :=
  ⟨scene.primitives.map (Primitive.renumber f)⟩

omit [Scalar R] in
theorem hitRegions_renumber (scene : Scene R) :
    (scene.renumber f).hitRegions = scene.hitRegions := by
  rw [hitRegions, renumber, List.filterMap_map]
  rfl

theorem label_renumber (shifts : Shifts f) (pool : Pool R) (role : Role)
    (resource : Option ResourceId) (within : Rect R) (align : Align) :
    label (pool.renumber f) role (resource.map f) within align =
      (label pool role resource within align).map (Primitive.renumber f) := by
  cases resource with
  | none => rfl
  | some id =>
    simp only [label, Option.map_some, Pool.label?_renumber shifts]
    cases pool.label? id <;> rfl

theorem outlineAt_renumber (shifts : Shifts f) (pool : Pool R) (outline : Option ResourceId)
    (rect : Rect R) (metrics : NodeMetrics R) :
    outlineAt (pool.renumber f) (outline.map f) rect metrics =
      outlineAt pool outline rect metrics := by
  cases outline with
  | none => rfl
  | some id => simp [outlineAt, Pool.shape?_renumber shifts]

omit [Scalar R] in
/-- Parts that are renumbered one by one are renumbered in order. -/
theorem flatMap_renumber {α : Type} {change : α → α} {parts renumbered : α → List (Primitive R)}
    (items : List α)
    (same : ∀ item, renumbered (change item) = (parts item).map (Primitive.renumber f)) :
    (items.map change).flatMap renumbered = (items.flatMap parts).map (Primitive.renumber f) := by
  rw [List.flatMap_map, List.map_flatMap]
  simp only [same]

variable (reg : Registry R)

section

variable (shifts : Shifts f)
include shifts

theorem edge_renumber (item : Edge) :
    edge (reg.renumber f) (item.renumber f) =
      (edge reg item).map (Primitive.renumber f) := by
  unfold edge
  rw [reg.edgePath_renumber shifts]
  cases reg.edgePath item with
  | none => rfl
  | some points =>
    have id : (item.renumber f).id = item.id := rfl
    have kind : (item.renumber f).kind = item.kind := rfl
    dsimp only
    rw [id, kind]
    split <;> rfl

theorem standalone_renumber (node : StandaloneNode R) :
    standalone (reg.renumber f) (node.renumber f) =
      (standalone reg node).map (Primitive.renumber f) := by
  have drawn : outlineAt (reg.renumber f).pool (node.renumber f).outline
      (node.renumber f).rect (reg.renumber f).metrics = _ :=
    outlineAt_renumber shifts reg.pool node.outline node.rect reg.metrics
  have labelled : label (reg.renumber f).pool (.standalone (node.renumber f).id)
      (node.renumber f).label (node.renumber f).rect .center = _ :=
    label_renumber shifts reg.pool (.standalone node.id) node.label node.rect .center
  rw [standalone, drawn, labelled]
  rfl

theorem classHeader_renumber (node : ClassNode R) :
    classHeader (reg.renumber f) (node.renumber f) =
      (classHeader reg node).map (Primitive.renumber f) := by
  have located : (reg.renumber f).headerRect (node.renumber f).id =
      reg.headerRect node.id :=
    reg.headerRect_renumber node.id
  unfold classHeader
  rw [located]
  cases reg.headerRect node.id with
  | none => rfl
  | some header =>
    have labelled : label (reg.renumber f).pool (.classHeader (node.renumber f).id)
        (node.renumber f).headerLabel header .center = _ :=
      label_renumber shifts reg.pool (.classHeader node.id) node.headerLabel header .center
    dsimp only
    rw [labelled]
    rfl

theorem methodRow_renumber (node : ClassNode R) (method : Method) :
    methodRow (reg.renumber f) (node.renumber f) (method.renumber f) =
      (methodRow reg node method).map (Primitive.renumber f) := by
  have located : (reg.renumber f).methodRowRect (method.renumber f).id =
      reg.methodRowRect method.id :=
    reg.methodRowRect_renumber method.id
  unfold methodRow
  rw [located]
  cases reg.methodRowRect method.id with
  | none => rfl
  | some row =>
    have labelled : label (reg.renumber f).pool
        (.methodRow (node.renumber f).id (method.renumber f).id) (method.renumber f).label
        (insetRow row) .left = _ :=
      label_renumber shifts reg.pool (.methodRow node.id method.id) method.label
        (insetRow row) .left
    dsimp only
    rw [labelled]
    rfl

theorem classBox_renumber (node : ClassNode R) :
    classBox (reg.renumber f) (node.renumber f) =
      (classBox reg node).map (Primitive.renumber f) := by
  have drawn : outlineAt (reg.renumber f).pool (node.renumber f).outline
      (node.renumber f).rect (reg.renumber f).metrics = _ :=
    outlineAt_renumber shifts reg.pool node.outline node.rect reg.metrics
  have rows := flatMap_renumber (reg.visibleMethods node.id)
    (methodRow_renumber reg shifts node)
  rw [← reg.visibleMethods_renumber] at rows
  have parts := classHeader_renumber reg shifts node
  rw [classBox, classBox, List.map_cons, List.map_append, ← rows, ← parts, drawn]
  rfl

/-- The scene of a renumbered map. -/
theorem ofRegistry_renumber : ofRegistry (reg.renumber f) = (ofRegistry reg).renumber f := by
  have edges := flatMap_renumber reg.edges.items (edge_renumber reg shifts)
  have standalone := flatMap_renumber reg.standalone.items (standalone_renumber reg shifts)
  have classes := flatMap_renumber reg.classes.items (classBox_renumber reg shifts)
  rw [renumber, ofRegistry, ofRegistry, List.map_append, List.map_append, ← edges, ← standalone,
    ← classes]
  rfl

end

end Scene

end CodeAtlas
