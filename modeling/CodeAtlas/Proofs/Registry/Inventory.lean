import CodeAtlas.Proofs.Registry.Run
import CodeAtlas.Proofs.Registry.Table
import CodeAtlas.Registry.Inventory

/-!
# The inventory keeps the registry

A registry can be kept as an inventory, and every operation on the inventory
answers as the operation on the registry does and gives the inventory of the
registry after it.  What holds of every registry that a run can reach holds so of
the orders and tables that are edited one by one.
-/

namespace CodeAtlas

variable {R : Type}

namespace Inventory

/-- A registry with its things on shelves. -/
def of (reg : Registry R) : Inventory R :=
  { reg with
    classes := .of reg.classes
    methods := .of reg.methods
    standalone := .of reg.standalone
    edges := .of reg.edges }

variable {reg : Registry R}

@[simp]
theorem classes_of : (of reg).classes = .of reg.classes :=
  rfl

@[simp]
theorem methods_of : (of reg).methods = .of reg.methods :=
  rfl

@[simp]
theorem standalone_of : (of reg).standalone = .of reg.standalone :=
  rfl

@[simp]
theorem edges_of : (of reg).edges = .of reg.edges :=
  rfl

/-- Read in order, the inventory of a registry is the registry. -/
theorem view_of (coherent : reg.Coherent) : (of reg).view = reg := by
  simp only [view, of, Shelf.items_of coherent.classKeys, Table.values_of,
    Shelf.items_of coherent.standaloneKeys, Shelf.items_of coherent.edgeKeys]

theorem containsNode_of : (of reg).containsNode = reg.containsNode := by
  funext id
  simp only [containsNode, of, Shelf.contains_of, Table.contains_of, Registry.containsNode]

variable [Scalar R]

/-! ## Rows -/

/-- Rows with their methods in a table. -/
def Rows.of (state : RowState R) : Rows R :=
  ⟨.of state.methods, state.pool, state.width, state.visibleRows⟩

theorem id_labelRow (node : ClassNode R) (pool : Pool R)
    (method : Method) : (reg.labelRow node pool method).1.id = method.id := by
  unfold Registry.labelRow
  dsimp only
  split <;> rfl

theorem refreshRow_of (node : ClassNode R) (state : RowState R) (id : NodeId) :
    (of reg).refreshRow node (.of state) id = .of (reg.refreshRow node state id) := by
  rw [refreshRow, Registry.refreshRow, Rows.of, Table.get?_of]
  cases found : state.methods.get? id with
  | none => rfl
  | some method =>
    have sameId : method.id = id := Store.key_of_get? found
    dsimp only
    split
    · rw [Table.modify_of]
      · rfl
      · exact fun _ _ => (id_labelRow _ _ _).trans sameId
    · rw [Table.modify_of fun _ _ => sameId]
      rfl

theorem refreshRows_of (node : ClassNode R) (pool : Pool R) :
    (of reg).refreshRows node pool =
      .of (node.methods.foldl (reg.refreshRow node)
        ⟨reg.methods, pool, Scalar.max
          (reg.metrics.textWidth reg.text node.headerText) reg.metrics.minWidth,
          0⟩) := by
  rw [← List.foldl_hom Rows.of (refreshRow_of node)]
  rfl

theorem refreshClass_of (classId : NodeId) :
    (of reg).refreshClass classId = of (reg.refreshClass classId) := by
  rw [refreshClass, Registry.refreshClass, classes_of, Shelf.get?_of]
  cases reg.classes.get? classId with
  | none => rfl
  | some node =>
    dsimp only
    rw [refreshRows_of, Shelf.modify_of]
    · rfl
    · exact fun _ same => same

/-- What an operation answers, and the inventory of what it leaves. -/
def onShelves {α : Type} (result : α × Registry R) : α × Inventory R :=
  (result.1, of result.2)

/-- A class is changed, and its rows are refreshed. -/
theorem refreshClass_modify (classId : NodeId)
    {change : ClassNode R → ClassNode R} (keepsId : ∀ node, (change node).id = node.id) :
    { of reg with
        classes := (Shelf.of reg.classes).modify classId change }.refreshClass classId =
      of ({ reg with
        classes := reg.classes.modify classId change }.refreshClass classId) := by
  rw [Shelf.modify_of fun node same => (keepsId node).trans same, ← refreshClass_of]
  rfl

theorem setToggle_of (classId : NodeId) (toggle : Toggle) (enabled : Bool) :
    (of reg).setToggle classId toggle enabled =
      onShelves (reg.setToggle classId toggle enabled) := by
  rw [setToggle, Registry.setToggle, classes_of, Shelf.get?_of]
  cases reg.classes.get? classId with
  | none => rfl
  | some node =>
    dsimp only
    split
    · rfl
    · exact congrArg (true, ·) (refreshClass_modify classId fun _ => rfl)

theorem flipToggle_of (classId : NodeId) (toggle : Toggle) :
    (of reg).flipToggle classId toggle = onShelves (reg.flipToggle classId toggle) := by
  rw [flipToggle, Registry.flipToggle, classes_of, Shelf.get?_of]
  cases reg.classes.get? classId with
  | none => rfl
  | some node => exact setToggle_of classId toggle _

theorem focusMethod_of (methodId : NodeId) :
    (of reg).focusMethod methodId = onShelves (reg.focusMethod methodId) := by
  rw [focusMethod, Registry.focusMethod, methods_of, Table.get?_of]
  cases reg.methods.get? methodId with
  | none => rfl
  | some method =>
    dsimp only
    rw [classes_of, Shelf.get?_of]
    cases reg.classes.get? method.classId with
    | none => rfl
    | some node =>
      dsimp only
      split
      · rfl
      · exact congrArg (true, ·) (refreshClass_modify method.classId fun _ => rfl)

theorem restoreMethods_of (classId : NodeId) :
    (of reg).restoreMethods classId = onShelves (reg.restoreMethods classId) := by
  rw [restoreMethods, Registry.restoreMethods, classes_of, Shelf.get?_of]
  cases reg.classes.get? classId with
  | none => rfl
  | some node =>
    dsimp only
    split
    · rfl
    · exact congrArg (true, ·) (refreshClass_modify classId fun _ => rfl)

/-! ## Taking in data -/

/-- A batch that is taken into an inventory. -/
def Intake.of (state : Ingest R) : Intake R :=
  { state with inventory := .of state.registry, pending := .of state.pending }

namespace Intake

theorem technicalNode_of (state : Ingest R) (node : Node) :
    (of state).technicalNode node = of (state.technicalNode node) := by
  rw [technicalNode, Ingest.technicalNode, of, containsNode_of]
  dsimp only
  split
  · rfl
  · next unknown =>
      have new : state.registry.classes.contains node.id = false := by
        simp_all [Registry.containsNode]
      rw [classes_of, Shelf.push_of ?_ new, Table.insert_of]
      · cases node.kind <;> rfl
      · rfl
      · rfl

omit [Scalar R] in
theorem claimMethod_of (state : Ingest R) (link : Relationship) :
    (of state).claimMethod link = of (state.claimMethod link) := by
  rw [claimMethod, Ingest.claimMethod, of, classes_of, Shelf.contains_of, Table.get?_of]
  split
  · rfl
  · cases state.pending.get? link.target with
    | none => rfl
    | some node =>
      dsimp only
      rw [Shelf.modify_of ?_, Table.remove_of, methods_of, Table.insert_of ?_]
      · rfl
      · rfl
      · exact fun _ => id

theorem technical_of (state : Ingest R) (nodes : List Node) (links : List Relationship) :
    (of state).technical nodes links = of (state.technical nodes links) := by
  rw [technical, List.foldl_hom of technicalNode_of, List.foldl_hom of claimMethod_of]
  dsimp only [of]
  rw [List.foldl_hom Inventory.of fun _ => refreshClass_of]
  rfl

theorem architectureNode_of (state : Ingest R) (node : Node) :
    (of state).architectureNode node = of (state.architectureNode node) := by
  rw [architectureNode, Ingest.architectureNode, of, containsNode_of]
  dsimp only
  split
  · rfl
  · next skipped =>
      have new : state.registry.standalone.contains node.id = false := by
        simp_all [Registry.containsNode]
      rw [standalone_of, Shelf.push_of ?_ new]
      · rfl
      · rfl

omit [Scalar R] in
theorem edge_of (state : Ingest R) (link : Relationship) :
    (of state).edge link = of (state.edge link) := by
  rw [edge, Ingest.edge, of]
  dsimp only
  rw [containsNode_of, edges_of, Shelf.contains_of]
  split
  · rfl
  · next skipped =>
      have new : state.registry.edges.contains link.id = false := by
        simp_all
      split
      · rfl
      · rw [Shelf.push_of ?_ new]
        · rfl
        · rfl

end Intake

theorem addData_of (reg : Registry R) (nodes : List Node) (links : List Relationship) :
    (of reg).addData nodes links = onShelves (reg.addData nodes links) := by
  have start : ({ inventory := of reg } : Intake R) = .of { registry := reg } := rfl
  have samePerspective : (of reg).perspective = reg.perspective := rfl
  rw [addData, Registry.addData, start, samePerspective]
  cases reg.perspective with
  | technical =>
    dsimp only
    rw [Intake.technical_of, List.foldl_hom Intake.of Intake.edge_of]
    rfl
  | architecture =>
    dsimp only
    rw [List.foldl_hom Intake.of Intake.architectureNode_of,
      List.foldl_hom Intake.of Intake.edge_of]
    rfl

theorem setData_of (nodes : List Node) (links : List Relationship) :
    (of reg).setData nodes links = onShelves (reg.setData nodes links) :=
  addData_of reg.clear nodes links

/-! ## Removal -/

section

variable (distinct : reg.edges.keys.Nodup)
include distinct

omit [Scalar R] in
theorem removeEdges_of (doomed : Edge → Bool) :
    (of reg).removeEdges doomed = of (reg.removeEdges doomed) := by
  rw [removeEdges, edges_of, Shelf.removeWhere_of distinct]
  rfl

omit [Scalar R] in
theorem deleteClass_of {node : ClassNode R} (rows : node.methods.Nodup) :
    (of reg).deleteClass node.id node = of (reg.deleteClass node) := by
  rw [deleteClass, Registry.deleteClass, Registry.removeEdgesAt,
    ← removeEdges_of (by exact distinct), methods_of, Table.removeAll_of rows,
    classes_of, Shelf.remove_of]
  rfl

theorem deleteMethod_of (method : Method) :
    (of reg).deleteMethod method.id method = of (reg.deleteMethod method) := by
  rw [deleteMethod, Registry.deleteMethod, ← refreshClass_of, Registry.removeEdgesAt,
    ← removeEdges_of (by exact distinct), methods_of, Table.remove_of,
    classes_of, Shelf.modify_of]
  · rfl
  · exact fun _ => id

omit [Scalar R] in
theorem deleteStandalone_of (node : StandaloneNode R) :
    (of reg).deleteStandalone node.id node = of (reg.deleteStandalone node) := by
  rw [deleteStandalone, Registry.deleteStandalone, Registry.removeEdgesAt,
    ← removeEdges_of (by exact distinct), standalone_of, Shelf.remove_of]
  rfl

end

theorem deleteNode_of (coherent : reg.Coherent) (id : NodeId) :
    (of reg).deleteNode id = onShelves (reg.deleteNode id) := by
  rw [deleteNode, Registry.deleteNode, classes_of, Shelf.get?_of]
  cases isClass : reg.classes.get? id with
  | some node =>
    have same : node.id = id := Store.key_of_get? isClass
    subst same
    have rows := coherent.rows node (Store.mem_of_get? isClass)
    exact congrArg (true, ·) (deleteClass_of coherent.edgeKeys rows)
  | none =>
    rw [methods_of, Table.get?_of]
    cases isMethod : reg.methods.get? id with
    | some method =>
      have same : method.id = id := Store.key_of_get? isMethod
      subst same
      exact congrArg (true, ·) (deleteMethod_of coherent.edgeKeys method)
    | none =>
      rw [standalone_of, Shelf.get?_of]
      cases isStandalone : reg.standalone.get? id with
      | some node =>
        have same : node.id = id := Store.key_of_get? isStandalone
        subst same
        exact congrArg (true, ·) (deleteStandalone_of coherent.edgeKeys node)
      | none => rfl

theorem deleteNodes_of (coherent : reg.Coherent) (ids : List NodeId) :
    ids.foldl (fun inventory id => (inventory.deleteNode id).2) (of reg) =
      of (ids.foldl (fun reg id => (reg.deleteNode id).2) reg) := by
  induction ids generalizing reg with
  | nil => rfl
  | cons id rest ih =>
    rw [List.foldl_cons, List.foldl_cons, deleteNode_of coherent]
    exact ih (coherent.deleteNode id)

theorem focusOnClass_of (coherent : reg.Coherent) (classId : NodeId) :
    (of reg).focusOnClass classId = onShelves (reg.focusOnClass classId) := by
  rw [focusOnClass, Registry.focusOnClass, classes_of, Shelf.contains_of]
  split
  · rw [removeEdges_of coherent.edgeKeys]
    dsimp only
    rw [deleteNodes_of (coherent.removeEdges fun _ => true)]
    rfl
  · rfl

/-! ## Places and lines -/

omit [Scalar R] in
theorem applyPositions_of (positions : Positions R) :
    (of reg).applyPositions positions = of (reg.applyPositions positions) := by
  refine List.foldl_hom of ?_
  rintro reg ⟨id, position⟩
  dsimp only
  rw [Registry.moveTo, classes_of, Shelf.contains_of, standalone_of,
    Shelf.modify_of, Shelf.modify_of]
  · split <;> rfl
  · exact fun _ same => same
  · exact fun _ same => same

omit [Scalar R] in
theorem visibleMethods_of (classId : NodeId) :
    (of reg).visibleMethods classId = reg.visibleMethods classId := by
  rw [visibleMethods, Registry.visibleMethods, Registry.methodsOf, classes_of,
    Shelf.get?_of, methods_of, Table.get?_of]
  cases reg.classes.get? classId <;> rfl

theorem anchorRect_of (id : NodeId) : (of reg).anchorRect id = reg.anchorRect id := by
  have header (classId : NodeId) : (of reg).headerRect classId = reg.headerRect classId := by
    rw [headerRect, Registry.headerRect, classes_of, Shelf.get?_of]
    rfl
  have row : (of reg).methodRowRect id = reg.methodRowRect id := by
    simp only [methodRowRect, classes_of, Shelf.get?_of, methods_of, Table.get?_of,
      visibleMethods_of]
    rfl
  simp only [anchorRect, classes_of, standalone_of, methods_of, Shelf.get?_of, Table.get?_of,
    header, row]
  rfl

omit [Scalar R] in
theorem layoutOwner_of (id : NodeId) : (of reg).layoutOwner id = reg.layoutOwner id := by
  simp only [layoutOwner, Registry.layoutOwner, classes_of, standalone_of,
    methods_of, Shelf.contains_of, Table.get?_of]

theorem route_of : (of reg).route = reg.route := by
  funext edge
  simp only [route, Registry.route, anchorRect_of, layoutOwner_of]

/-- A registry with other edges and another pool. -/
def withEdges (reg : Registry R) (edges : List Edge) (pool : Pool R) : Inventory R :=
  of { reg with edges := ⟨edges⟩, pool }

omit [Scalar R] in
/-- An edge gets a line where it stands. -/
theorem draw_withEdges {before after : List Edge} {edge : Edge}
    (distinct : ((before ++ edge :: after).map Edge.id).Nodup) (pool : Pool R)
    (points : List (Vec R)) :
    (withEdges reg (before ++ edge :: after) pool).draw edge.id points = withEdges reg
        (before ++ { edge with
          geometry := some (pool.upsertShape edge.geometry points).1 } :: after)
        (pool.upsertShape edge.geometry points).2 := by
  let store : Store Edge := ⟨before ++ edge :: after⟩
  have found : store.get? edge.id = some edge :=
    Store.get?_of_mem distinct (List.mem_append_right before List.mem_cons_self)
  have modified (change : Edge → Edge) : store.modify edge.id change =
      ⟨before ++ change edge :: after⟩ :=
    congrArg Store.mk (Store.items_modify_of_split rfl rfl (Store.others_of_split distinct rfl))
  rw [draw, withEdges, edges_of, Shelf.get?_of, found]
  dsimp only
  rw [Shelf.modify_of, modified]
  · rfl
  · exact fun _ same => same

/-- The lines of some edges, all found before the first of them is drawn, are drawn
as they are routed. -/
theorem draw_routes (before : List Edge) {after : List Edge}
    (distinct : ((before ++ after).map Edge.id).Nodup) (pool : Pool R) :
    (after.filterMap fun edge => (reg.route edge).map fun points => (edge.id, points)).foldl
        (fun inventory (id, points) => inventory.draw id points)
        (withEdges reg (before ++ after) pool) =
      withEdges reg (before ++ (reg.routeAll after pool).1)
        (reg.routeAll after pool).2 := by
  induction after generalizing before pool with
  | nil => rfl
  | cons edge rest ih =>
    rw [Registry.routeAll]
    cases found : reg.route edge with
    | none =>
      simp only [List.filterMap_cons, found, Option.map_none]
      rw [List.append_cons] at distinct ⊢
      rw [ih _ distinct pool, List.append_assoc]
      rfl
    | some points =>
      simp only [List.filterMap_cons, found, Option.map_some, List.foldl_cons]
      rw [draw_withEdges distinct, List.append_cons, ih, List.append_assoc]
      · rfl
      · simpa using distinct

theorem updateEdgeGeometry_of (distinct : reg.edges.keys.Nodup) :
    (of reg).updateEdgeGeometry = of reg.updateEdgeGeometry := by
  rw [updateEdgeGeometry, route_of, edges_of, Shelf.items_of distinct]
  exact draw_routes [] distinct reg.pool

/-! ## Runs -/

omit [Scalar R] in
theorem setPerspective_of (perspective : Perspective) :
    (of reg).setPerspective perspective = onShelves (reg.setPerspective perspective) := by
  rw [setPerspective, Registry.setPerspective, onShelves]
  have same : (of reg).perspective = reg.perspective := rfl
  rw [same]
  split <;> rfl

/-- The inventory after an operation. -/
def apply (inventory : Inventory R) : Registry.Operation R → Inventory R
  | .setPerspective perspective => (inventory.setPerspective perspective).2
  | .setData nodes links => (inventory.setData nodes links).2
  | .addData nodes links => (inventory.addData nodes links).2
  | .deleteNode id => (inventory.deleteNode id).2
  | .clear => inventory.clear
  | .focusOnClass classId => (inventory.focusOnClass classId).2
  | .setToggle classId toggle enabled => (inventory.setToggle classId toggle enabled).2
  | .flipToggle classId toggle => (inventory.flipToggle classId toggle).2
  | .focusMethod methodId => (inventory.focusMethod methodId).2
  | .restoreMethods classId => (inventory.restoreMethods classId).2
  | .applyPositions positions => inventory.applyPositions positions
  | .updateEdgeGeometry => inventory.updateEdgeGeometry

/-- The inventory after operations, the first one first. -/
def run (inventory : Inventory R) (operations : List (Registry.Operation R)) : Inventory R :=
  operations.foldl apply inventory

theorem apply_of (coherent : reg.Coherent) (operation : Registry.Operation R) :
    (of reg).apply operation = of (reg.apply operation) := by
  cases operation with
  | setPerspective perspective =>
    exact congrArg Prod.snd (setPerspective_of perspective)
  | setData nodes links =>
    exact congrArg Prod.snd (setData_of nodes links)
  | addData nodes links =>
    exact congrArg Prod.snd (addData_of reg nodes links)
  | deleteNode id => exact congrArg Prod.snd (deleteNode_of coherent id)
  | clear => rfl
  | focusOnClass classId => exact congrArg Prod.snd (focusOnClass_of coherent classId)
  | setToggle classId toggle enabled =>
    exact congrArg Prod.snd (setToggle_of classId toggle enabled)
  | flipToggle classId toggle =>
    exact congrArg Prod.snd (flipToggle_of classId toggle)
  | focusMethod methodId => exact congrArg Prod.snd (focusMethod_of methodId)
  | restoreMethods classId => exact congrArg Prod.snd (restoreMethods_of classId)
  | applyPositions positions => exact applyPositions_of positions
  | updateEdgeGeometry => exact updateEdgeGeometry_of coherent.edgeKeys

/-- Operations on the inventory of a registry give the inventory of the registry
after them. -/
theorem run_of (coherent : reg.Coherent) (operations : List (Registry.Operation R)) :
    (of reg).run operations = of (reg.run operations) := by
  induction operations generalizing reg with
  | nil => rfl
  | cons operation rest ih =>
    rw [run, List.foldl_cons, apply_of coherent]
    exact ih (coherent.apply operation)

/-- Whatever is asked of a new inventory and of a new registry, the one read in
order is the other. -/
theorem view_run_create (metrics : NodeMetrics R) (toggles : Toggles) (text : TextMetrics R)
    (operations : List (Registry.Operation R)) :
    ((create metrics toggles text).run operations).view =
      (Registry.create metrics toggles text).run operations := by
  have coherent := Registry.coherent_create metrics toggles text
  have kept : (create metrics toggles text).run operations =
      of ((Registry.create metrics toggles text).run operations) :=
    run_of coherent operations
  rw [kept, view_of (coherent.run operations)]

/-- After every run from an empty map: each order lists the keys of its table,
every key once, and everything is stored under its own id; methods and rows belong
together one to one; a focused method is a row of its class; every edge is drawn
and has both ends on the map; and the perspective decides which kinds of nodes
there are. -/
theorem orders_in_step_after_run (metrics : NodeMetrics R) (toggles : Toggles)
    (text : TextMetrics R) (operations : List (Registry.Operation R)) :
    let inventory := (create metrics toggles text).run operations
    (inventory.classes.InStep ∧ inventory.standalone.InStep ∧ inventory.edges.InStep) ∧
    (∀ id method, inventory.methods.get? id = some method → method.id = id ∧
      ∃ owner, inventory.classes.get? method.classId = some owner ∧ owner.methods.count id = 1) ∧
    (∀ classId node, inventory.classes.get? classId = some node →
      (∀ id ∈ node.methods,
        ∃ method, inventory.methods.get? id = some method ∧ method.classId = classId) ∧
      ∀ id, node.focusedMethod = some id → id ∈ node.methods) ∧
    (∀ id edge, inventory.edges.get? id = some edge →
      inventory.containsNode edge.source = true ∧ inventory.containsNode edge.target = true ∧
        edge.kind ≠ .hasMethod) ∧
    (inventory.perspective = .architecture → inventory.classes = {} ∧ inventory.methods = {}) ∧
    (inventory.perspective = .technical → inventory.standalone = {}) := by
  intro inventory
  let registry := (Registry.create metrics toggles text).run operations
  have coherent : registry.Coherent :=
    (Registry.coherent_create metrics toggles text).run operations
  have kept : inventory = of registry :=
    run_of (Registry.coherent_create metrics toggles text) operations
  clear_value inventory registry
  subst kept
  simp only [classes_of, methods_of, standalone_of, edges_of,
    Shelf.get?_of, Table.get?_of, containsNode_of]
  refine ⟨⟨Shelf.inStep_of coherent.classKeys, Shelf.inStep_of coherent.standaloneKeys,
      Shelf.inStep_of coherent.edgeKeys⟩, ?_, ?_, ?_, ?_, ?_⟩
  · intro id method found
    exact ⟨Store.key_of_get? found, coherent.owner_of_get? found⟩
  · intro classId node found
    exact ⟨fun id listed => coherent.member_of_get? found listed,
      fun id focused => coherent.focus node (Store.mem_of_get? found) id focused⟩
  · intro id edge found
    have mem := Store.mem_of_get? found
    obtain ⟨source, target⟩ := coherent.ends edge mem
    exact ⟨source, target, coherent.drawn edge mem⟩
  · intro isArchitecture
    obtain ⟨noClasses, noMethods⟩ := coherent.architecture isArchitecture
    simp [Shelf.of, Table.of, Store.keys, noClasses, noMethods]
  · intro isTechnical
    simp [Shelf.of, Table.of, Store.keys, coherent.technical isTechnical]

end Inventory

end CodeAtlas
