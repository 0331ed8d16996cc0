import CodeAtlas.Proofs.Layout.Tree
import CodeAtlas.Proofs.Registry.Pictures

/-!
# Places and routes

The layout places every box, the boxes go where they are placed, and the lines
of edges join their ends as they stand then.  Moving boxes and routing edges
change nothing that the layout looks at, so that a map that is laid out stays so
until a node, a row or an edge changes.
-/

namespace CodeAtlas

variable {R : Type} [Scalar R] {reg : Registry R}

/-! ## What a layout places -/

/-- The layout has a position for every box. -/
def PlacesAll (layouter : Layouter R) : Prop :=
  ∀ nodes edges, ∀ node ∈ nodes, ((layouter nodes edges).get? node.id).isSome = true

theorem TreeLayouter.placesAll_execute (layouter : TreeLayouter R) :
    PlacesAll layouter.execute := by
  intro nodes edges node mem
  have placed : node.id ∈ (layouter.execute nodes edges).map Prod.fst := by
    rw [map_fst_execute]
    exact List.mem_map_of_mem mem
  obtain ⟨place, placeMem, placeId⟩ := List.mem_map.mp placed
  rw [Positions.get?, List.lookup_isSome_iff]
  exact ⟨place, List.mem_reverse.mpr placeMem, by simp [placeId]⟩

omit [Scalar R] in
theorem Positions.get?_concat (positions : Positions R) (id moved : NodeId) (position : Vec R) :
    Positions.get? (positions ++ [(moved, position)]) id =
      if id = moved then some position else positions.get? id := by
  rw [Positions.get?, List.reverse_append, List.reverse_singleton, List.singleton_append,
    List.lookup_cons]
  by_cases hit : id = moved
  · simp [hit]
  · rw [if_neg hit, beq_false_of_ne hit, Positions.get?]

/-- The row of a box below its header and so many other rows. -/
def NodeMetrics.rowAt (metrics : NodeMetrics R) (box : Rect R) (index : Nat) : Rect R :=
  .ofPosSize
    ⟨box.min.x, box.min.y + metrics.headerHeight + Scalar.ofNat index * metrics.rowHeight⟩
    ⟨box.width, metrics.rowHeight⟩

namespace Registry

/-! ## Moving boxes -/

section
omit [Scalar R]

theorem applyPositions_concat (reg : Registry R) (positions : Positions R) (id : NodeId)
    (position : Vec R) :
    reg.applyPositions (positions ++ [(id, position)]) =
      (reg.applyPositions positions).moveTo id position := by
  rw [applyPositions, List.foldl_append]
  rfl

theorem classes_moveTo (reg : Registry R) (id : NodeId) (position : Vec R) :
    (reg.moveTo id position).classes =
      reg.classes.modify id fun node => { node with position } := by
  unfold moveTo
  split
  · rfl
  · next unknown =>
      rw [Store.contains_iff] at unknown
      exact (Store.modify_of_not_mem unknown).symm

theorem standalone_moveTo {id : NodeId} (noClass : id ∉ reg.classes.keys) (position : Vec R) :
    (reg.moveTo id position).standalone =
      reg.standalone.modify id fun node => { node with position } := by
  unfold moveTo
  rw [if_neg]
  rwa [Store.contains_iff]

/-- A class goes to the position that the layout has for it. -/
theorem class_position_applyPositions {positions : Positions R} {node : ClassNode R}
    (mem : node ∈ (reg.applyPositions positions).classes.items) {position : Vec R}
    (placed : positions.get? node.id = some position) :
    node.position = position := by
  induction positions using List.reverseRecOn with
  | nil => cases placed
  | append_singleton positions last ih =>
    rcases last with ⟨id, target⟩
    rw [applyPositions_concat, classes_moveTo] at mem
    rw [Positions.get?_concat] at placed
    rcases Store.mem_modify.mp mem with ⟨old, _, same, rfl⟩ | ⟨old, different⟩
    · exact Option.some.inj ((if_pos same).symm.trans placed)
    · exact ih old ((if_neg different).symm.trans placed)

end

theorem keys_classes_applyPositions (reg : Registry R) (positions : Positions R) :
    (reg.applyPositions positions).classes.keys = reg.classes.keys := by
  rw [← keys_bare_classes, bare_applyPositions, keys_bare_classes]

/-- So does a standalone node, where there are no classes. -/
theorem standalone_position_applyPositions (noClasses : reg.classes.keys = [])
    {positions : Positions R} {node : StandaloneNode R}
    (mem : node ∈ (reg.applyPositions positions).standalone.items) {position : Vec R}
    (placed : positions.get? node.id = some position) :
    node.position = position := by
  induction positions using List.reverseRecOn with
  | nil => cases placed
  | append_singleton positions last ih =>
    rcases last with ⟨id, target⟩
    have noClass : id ∉ (reg.applyPositions positions).classes.keys := by
      rw [keys_classes_applyPositions, noClasses]
      exact List.not_mem_nil
    rw [applyPositions_concat, standalone_moveTo noClass] at mem
    rw [Positions.get?_concat] at placed
    rcases Store.mem_modify.mp mem with ⟨old, _, same, rfl⟩ | ⟨old, different⟩
    · exact Option.some.inj ((if_pos same).symm.trans placed)
    · exact ih old ((if_neg different).symm.trans placed)

/-! ## What the layout looks at -/

omit [Scalar R] in
theorem layoutNodes_moveTo (reg : Registry R) (id : NodeId) (position : Vec R) :
    (reg.moveTo id position).layoutNodes = reg.layoutNodes := by
  unfold moveTo layoutNodes
  split
  · exact congrArg (· ++ _) (Store.map_modify fun _ _ => rfl)
  · exact congrArg (_ ++ ·) (Store.map_modify fun _ _ => rfl)

omit [Scalar R] in
theorem layoutNodes_applyPositions (reg : Registry R) (positions : Positions R) :
    (reg.applyPositions positions).layoutNodes = reg.layoutNodes := by
  induction positions using List.reverseRecOn with
  | nil => rfl
  | append_singleton positions last ih =>
    rw [applyPositions_concat, layoutNodes_moveTo, ih]

theorem layoutOwner_bare (reg : Registry R) (id : NodeId) :
    reg.bare.layoutOwner id = reg.layoutOwner id := by
  have classes : reg.bare.classes.contains id = reg.classes.contains id := by
    rw [Bool.eq_iff_iff, Store.contains_iff, Store.contains_iff, keys_bare_classes]
  have standalone : reg.bare.standalone.contains id = reg.standalone.contains id := by
    rw [Bool.eq_iff_iff, Store.contains_iff, Store.contains_iff, keys_bare_standalone]
  have owner : (reg.bare.methods.get? id).map Method.classId =
      (reg.methods.get? id).map Method.classId := by
    simp only [Store.get?, bare, List.find?_map, Option.map_map]
    rfl
  rw [layoutOwner, layoutOwner, classes, standalone, owner]

theorem layoutEdges_bare (reg : Registry R) :
    reg.bare.layoutEdges = reg.layoutEdges := by
  rw [layoutEdges, layoutEdges, bare, List.filterMap_map]
  apply List.filterMap_congr
  intro edge _
  simp only [Function.comp_apply, Edge.bare]
  rw [← layoutOwner_bare reg, ← layoutOwner_bare reg]
  rfl

/-- Placing boxes and routing edges changes nothing that the layout looks at. -/
theorem layout_same (reg : Registry R) (positions : Positions R) :
    (reg.applyPositions positions).updateEdgeGeometry.layoutNodes = reg.layoutNodes ∧
      (reg.applyPositions positions).updateEdgeGeometry.layoutEdges =
        reg.layoutEdges := by
  constructor
  · exact layoutNodes_applyPositions reg positions
  · rw [← layoutEdges_bare, bare_updateEdgeGeometry, bare_applyPositions, layoutEdges_bare]

/-! ## Ends of edges -/

/-- The id names something with a box of its own. -/
def IsBox (reg : Registry R) (id : NodeId) : Prop :=
  id ∈ reg.classes.keys ∨ id ∈ reg.standalone.keys

/-- The box that an id belongs to: a method without a box of its own belongs to
its class. -/
inductive BelongsTo (reg : Registry R) : NodeId → NodeId → Prop where
  | box {id : NodeId} (known : reg.IsBox id) : BelongsTo reg id id
  | method {method : Method} (mem : method ∈ reg.methods.items)
      (noBox : ¬ reg.IsBox method.id) : BelongsTo reg method.id method.classId

/-- A link between boxes stands for an edge: both ends are lifted to the boxes
that they belong to. -/
structure Lifts (reg : Registry R) (edge : Edge) (link : LayoutEdge) : Prop where
  source : reg.BelongsTo edge.source link.source
  target : reg.BelongsTo edge.target link.target
  kind : link.kind = edge.kind

/-- Where an edge can attach: at a whole box; at the row of a method that is
shown, below the header and the shown rows above it; or at the header of the
class whose row is hidden. -/
inductive Attaches (reg : Registry R) : NodeId → Rect R → Prop where
  | classBox {node : ClassNode R} (mem : node ∈ reg.classes.items) :
      Attaches reg node.id node.rect
  | standaloneBox {node : StandaloneNode R} (mem : node ∈ reg.standalone.items)
      (noClass : node.id ∉ reg.classes.keys) : Attaches reg node.id node.rect
  | row {method : Method} {node : ClassNode R} {above below : List Method}
      (mem : method ∈ reg.methods.items) (noBox : ¬ reg.IsBox method.id)
      (owner : node ∈ reg.classes.items) (ownerId : node.id = method.classId)
      (visible : method.visible = true)
      (rows : reg.visibleMethods node.id = above ++ method :: below) :
      Attaches reg method.id (.ofPosSize
        ⟨node.rect.min.x, node.rect.min.y + reg.metrics.headerHeight +
          Scalar.ofNat above.length * reg.metrics.rowHeight⟩
        ⟨node.rect.width, reg.metrics.rowHeight⟩)
  | header {method : Method} {node : ClassNode R}
      (mem : method ∈ reg.methods.items) (noBox : ¬ reg.IsBox method.id)
      (owner : node ∈ reg.classes.items) (ownerId : node.id = method.classId)
      (hidden : method.visible = false) :
      Attaches reg method.id
        (.ofPosSize node.rect.min ⟨node.rect.width, reg.metrics.headerHeight⟩)

omit [Scalar R] in
/-- What is on the map without a box is a method. -/
theorem exists_method_of_not_isBox {id : NodeId} (known : reg.containsNode id = true)
    (noBox : ¬ reg.IsBox id) :
    ∃ method, reg.methods.get? id = some method := by
  apply Store.exists_get?
  rcases containsNode_iff.mp known with isClass | isMethod | isStandalone
  · exact absurd (Or.inl isClass) noBox
  · exact isMethod
  · exact absurd (Or.inr isStandalone) noBox

omit [Scalar R] in
theorem exists_layoutOwner {id : NodeId} (known : reg.containsNode id = true) :
    ∃ box, reg.layoutOwner id = some box ∧ reg.BelongsTo id box := by
  have boxed : (reg.classes.contains id || reg.standalone.contains id) = true ↔
      reg.IsBox id := by
    rw [Bool.or_eq_true, Store.contains_iff, Store.contains_iff, IsBox]
  by_cases isBox : reg.IsBox id
  · exact ⟨id, if_pos (boxed.mpr isBox), .box isBox⟩
  · obtain ⟨method, found⟩ := exists_method_of_not_isBox known isBox
    have methodId : method.id = id := Store.key_of_get? found
    refine ⟨method.classId, ?_, ?_⟩
    · rw [layoutOwner, if_neg fun either => isBox (boxed.mp either), found, Option.map_some]
    · rw [← methodId] at isBox ⊢
      exact .method (Store.mem_of_get? found) isBox

/-- Where every item has an image, filtering loses none. -/
theorem forall₂_filterMap {α β : Type} {relation : α → β → Prop} {image : α → Option β}
    {items : List α}
    (total : ∀ item ∈ items, ∃ found, image item = some found ∧ relation item found) :
    List.Forall₂ relation items (items.filterMap image) := by
  induction items with
  | nil => exact .nil
  | cons item rest ih =>
    obtain ⟨found, imageEq, related⟩ := total item List.mem_cons_self
    rw [List.filterMap_cons_some imageEq]
    exact .cons related
      (ih fun other mem => total other (List.mem_cons_of_mem _ mem))

omit [Scalar R] in
/-- The layout gets one link for each edge, in the same order. -/
theorem Coherent.forall₂_layoutEdges (coherent : reg.Coherent) :
    List.Forall₂ reg.Lifts reg.edges.items reg.layoutEdges := by
  apply forall₂_filterMap
  intro edge mem
  obtain ⟨sourceKnown, targetKnown⟩ := coherent.ends edge mem
  obtain ⟨sourceBox, sourceOwner, sourceBelongs⟩ := exists_layoutOwner sourceKnown
  obtain ⟨targetBox, targetOwner, targetBelongs⟩ := exists_layoutOwner targetKnown
  refine ⟨⟨sourceBox, targetBox, edge.kind⟩, ?_, sourceBelongs, targetBelongs, rfl⟩
  rw [sourceOwner, targetOwner]
  rfl

/-- A visible method has the row of its class that its place in the list of
visible methods tells. -/
theorem Coherent.exists_row (coherent : reg.Coherent) {node : ClassNode R}
    (nodeMem : node ∈ reg.classes.items) {method : Method}
    (listed : method ∈ reg.visibleMethods node.id) :
    ∃ index, (reg.visibleMethods node.id)[index]? = some method ∧
      reg.methodRowRect method.id = some (reg.metrics.rowAt node.rect index) := by
  obtain ⟨own, visible⟩ := List.mem_filter.mp listed
  obtain ⟨mem, ownerId⟩ := coherent.mem_methodsOf_iff.mp own
  have found : reg.methods.get? method.id = some method :=
    Store.get?_of_mem coherent.methodKeys mem
  have nodeFound : reg.classes.get? node.id = some node :=
    Store.get?_of_mem coherent.classKeys nodeMem
  obtain ⟨index, indexEq⟩ : ∃ index, (reg.visibleMethods node.id).findIdx?
      (fun row => row.id == method.id) = some index := by
    rw [← Option.isSome_iff_exists, List.findIdx?_isSome]
    exact List.any_eq_true.mpr ⟨method, listed, beq_self_eq_true _⟩
  obtain ⟨inside, hit, _⟩ := List.findIdx?_eq_some_iff_getElem.mp indexEq
  have rowMem : (reg.visibleMethods node.id)[index] ∈ reg.methods.items :=
    (coherent.mem_methodsOf_iff.mp (List.mem_filter.mp (List.getElem_mem inside)).1).1
  have rowId : (reg.visibleMethods node.id)[index].id = method.id := by simpa using hit
  have rowEq := Store.eq_of_key_eq coherent.methodKeys rowMem mem rowId
  refine ⟨index, List.getElem?_eq_some_iff.mpr ⟨inside, rowEq⟩, ?_⟩
  simp only [methodRowRect, found, visible, if_true, ownerId, indexEq, nodeFound,
    Option.bind_eq_bind, Option.bind_some]
  rfl

/-- The row of a method that is shown stands below the rows above it. -/
theorem Coherent.exists_methodRowRect (coherent : reg.Coherent) {method : Method}
    (mem : method ∈ reg.methods.items) (noBox : ¬ reg.IsBox method.id)
    (visible : method.visible = true) :
    ∃ rect, reg.methodRowRect method.id = some rect ∧ reg.Attaches method.id rect := by
  obtain ⟨node, nodeMem, nodeId, _⟩ := coherent.owner method mem
  have listed : method ∈ reg.visibleMethods node.id :=
    List.mem_filter.mpr ⟨coherent.mem_methodsOf_iff.mpr ⟨mem, nodeId.symm⟩, visible⟩
  obtain ⟨index, at_index, row⟩ := coherent.exists_row nodeMem listed
  obtain ⟨inside, rowEq⟩ := List.getElem?_eq_some_iff.mp at_index
  have rows : reg.visibleMethods node.id =
      (reg.visibleMethods node.id).take index ++
        method :: (reg.visibleMethods node.id).drop (index + 1) := by
    conv_lhs => rw [← List.take_append_drop index (reg.visibleMethods node.id)]
    rw [List.drop_eq_getElem_cons inside, rowEq]
  have attached := Attaches.row mem noBox nodeMem nodeId visible rows
  rw [List.length_take, Nat.min_eq_left (Nat.le_of_lt inside)] at attached
  exact ⟨_, row, attached⟩

/-- Everything on the map has a place for edges to attach. -/
theorem Coherent.exists_anchorRect (coherent : reg.Coherent) {id : NodeId}
    (known : reg.containsNode id = true) :
    ∃ rect, reg.anchorRect id = some rect ∧ reg.Attaches id rect := by
  unfold anchorRect
  cases isClass : reg.classes.get? id with
  | some node =>
    have nodeId : node.id = id := Store.key_of_get? isClass
    exact ⟨node.rect, rfl, nodeId ▸ .classBox (Store.mem_of_get? isClass)⟩
  | none =>
    have noClass := Store.get?_eq_none_iff.mp isClass
    cases isStandalone : reg.standalone.get? id with
    | some node =>
      have nodeId : node.id = id := Store.key_of_get? isStandalone
      subst nodeId
      exact ⟨node.rect, rfl, .standaloneBox (Store.mem_of_get? isStandalone) noClass⟩
    | none =>
      have noBox : ¬ reg.IsBox id :=
        not_or.mpr ⟨noClass, Store.get?_eq_none_iff.mp isStandalone⟩
      obtain ⟨method, found⟩ := exists_method_of_not_isBox known noBox
      have mem := Store.mem_of_get? found
      have methodId : method.id = id := Store.key_of_get? found
      subst methodId
      rw [found]
      cases visible : method.visible with
      | true =>
        obtain ⟨rect, row, attached⟩ := coherent.exists_methodRowRect mem noBox visible
        exact ⟨rect, by simp only [row], attached⟩
      | false =>
        obtain ⟨node, nodeMem, nodeId, _⟩ := coherent.owner method mem
        have nodeFound : reg.classes.get? method.classId = some node :=
          (Store.get?_eq_some_iff coherent.classKeys).mpr ⟨nodeMem, nodeId⟩
        have noRow : reg.methodRowRect method.id = none := by
          simp [methodRowRect, found, visible]
        refine ⟨_, ?_, .header mem noBox nodeMem nodeId visible⟩
        simp only [noRow, headerRect, nodeFound, Option.map_some]

/-- Where edges meet an id on the map, and the box that it belongs to. -/
structure Anchored (reg : Registry R) (id : NodeId) (rect : Rect R) (box : NodeId) :
    Prop where
  found : reg.anchorRect id = some rect
  attaches : reg.Attaches id rect
  belongs : reg.BelongsTo id box

/-- Every edge can be routed, between the anchors of its ends. -/
theorem Coherent.exists_route (coherent : reg.Coherent) {edge : Edge}
    (mem : edge ∈ reg.edges.items) :
    ∃ source target sourceBox targetBox, reg.Anchored edge.source source sourceBox ∧
      reg.Anchored edge.target target targetBox ∧
      reg.route edge = some (routeEdge source target (sourceBox == targetBox)) := by
  obtain ⟨sourceKnown, targetKnown⟩ := coherent.ends edge mem
  obtain ⟨source, sourceRect, sourceAttached⟩ := coherent.exists_anchorRect sourceKnown
  obtain ⟨target, targetRect, targetAttached⟩ := coherent.exists_anchorRect targetKnown
  obtain ⟨sourceBox, sourceOwner, sourceBelongs⟩ := exists_layoutOwner sourceKnown
  obtain ⟨targetBox, targetOwner, targetBelongs⟩ := exists_layoutOwner targetKnown
  refine ⟨source, target, sourceBox, targetBox, ⟨sourceRect, sourceAttached, sourceBelongs⟩,
    ⟨targetRect, targetAttached, targetBelongs⟩, ?_⟩
  rw [route, sourceRect, targetRect, sourceOwner, targetOwner]
  rfl

/-! ## Maps that are laid out -/

/-- Boxes stand where the layout puts them, and the line of every edge is the one
between its ends as they stand. -/
structure Laid (reg : Registry R) (layouter : Layouter R) : Prop where
  classes : ∀ node ∈ reg.classes.items,
    (layouter reg.layoutNodes reg.layoutEdges).get? node.id = some node.position
  standalone : ∀ node ∈ reg.standalone.items,
    (layouter reg.layoutNodes reg.layoutEdges).get? node.id = some node.position
  routes : ∀ edge ∈ reg.edges.items, ∃ points geometry,
    reg.route edge = some points ∧ edge.geometry = some geometry ∧
      reg.pool.Names geometry (.shape points)

/-- Resources may come and go as long as no line is redrawn. -/
theorem Laid.of_pool {layouter : Layouter R} (laid : reg.Laid layouter) {pool : Pool R}
    (evolves : reg.pool.Evolves pool []) :
    { reg with pool }.Laid layouter := by
  refine ⟨laid.classes, laid.standalone, ?_⟩
  intro edge mem
  obtain ⟨points, geometry, routed, drawn, names⟩ := laid.routes edge mem
  exact ⟨points, geometry, routed, drawn, names.evolve evolves List.not_mem_nil⟩

theorem laid_of_empty {layouter : Layouter R} (noClasses : reg.classes.items = [])
    (noStandalone : reg.standalone.items = [])
    (noEdges : reg.edges.items = []) : reg.Laid layouter := by
  constructor
  · rw [noClasses]
    intro node mem
    cases mem
  · rw [noStandalone]
    intro node mem
    cases mem
  · rw [noEdges]
    intro edge mem
    cases mem

/-- A map without boxes has no edges either. -/
theorem Coherent.laid_of_no_boxes (coherent : reg.Coherent) {layouter : Layouter R}
    (noBoxes : reg.layoutNodes = []) : reg.Laid layouter := by
  obtain ⟨noClasses, noStandalone⟩ := List.append_eq_nil_iff.mp noBoxes
  rw [List.map_eq_nil_iff] at noClasses noStandalone
  refine laid_of_empty noClasses noStandalone ?_
  have unknown : ∀ id, reg.containsNode id = false := by
    intro id
    have noMethods : reg.methods.items = [] := by
      rw [List.eq_nil_iff_forall_not_mem]
      intro method mem
      obtain ⟨owner, ownerMem, _⟩ := coherent.owner method mem
      rw [noClasses] at ownerMem
      cases ownerMem
    simp [containsNode, Store.contains, noClasses, noMethods, noStandalone]
  rw [List.eq_nil_iff_forall_not_mem]
  intro edge mem
  have known := (coherent.ends edge mem).1
  rw [unknown] at known
  cases known

/-- Routing draws every line that can be routed, and later lines leave the
earlier ones alone. -/
theorem names_routeAll (reg : Registry R) {edges : List Edge} {pool : Pool R}
    {rest : List Slot} (holds : pool.Holds (edges.flatMap Edge.slots ++ rest))
    (routes : ∀ edge ∈ edges, ∃ points, reg.route edge = some points) :
    ∀ edge ∈ (reg.routeAll edges pool).1, ∃ points geometry,
      reg.route edge = some points ∧ edge.geometry = some geometry ∧
        (reg.routeAll edges pool).2.Names geometry (.shape points) := by
  induction edges generalizing pool rest with
  | nil =>
    intro edge mem
    cases mem
  | cons edge others ih =>
    obtain ⟨points, route⟩ := routes edge List.mem_cons_self
    rw [List.flatMap_cons, List.append_assoc] at holds
    have given : ∀ id ∈ edge.geometry, id ≤ pool.lastId := fun id filled =>
      holds.bound (id, .shape)
        (List.mem_append_left _ (Slot.mem_filled_iff.mpr ⟨filled, rfl⟩))
    have named := Pool.names_upsertShape points given
    have drawn : (pool.upsertShape edge.geometry points).2.Holds
        ([((pool.upsertShape edge.geometry points).1, .shape)] ++
          (others.flatMap Edge.slots ++ rest)) :=
      holds.upsertShape points
    have apart : ((pool.upsertShape edge.geometry points).1, ResourceKind.shape) ∉
        others.flatMap Edge.slots := by
      intro shared
      have distinct := drawn.distinct
      rw [List.map_append] at distinct
      exact List.disjoint_of_nodup_append distinct List.mem_cons_self
        (List.mem_map_of_mem (List.mem_append_left rest shared))
    have later := ih drawn.swap fun other mem =>
      routes other (List.mem_cons_of_mem _ mem)
    have evolves := evolves_routeAll reg others (pool.upsertShape edge.geometry points).2
      fun other mem _ own => List.mem_flatMap.mpr ⟨other, mem, own⟩
    unfold routeAll
    rw [route]
    rintro routed (_ | ⟨_, mem⟩)
    · exact ⟨points, _, route, rfl, named.evolve evolves apart⟩
    · exact later routed mem

/-- Placing all boxes and then routing all edges lays a map out. -/
theorem Coherent.laid_of_layout (coherent : reg.Coherent) {lent : List Slot}
    (balanced : reg.Balanced lent) {layouter : Layouter R} (places : PlacesAll layouter) :
    ((reg.applyPositions (layouter reg.layoutNodes
      reg.layoutEdges)).updateEdgeGeometry).Laid layouter := by
  let positions := layouter reg.layoutNodes reg.layoutEdges
  have coherentMoved := coherent.applyPositions positions
  have balancedMoved := balanced.applyPositions positions
  obtain ⟨nodesEq, edgesEq⟩ := layout_same reg positions
  have placed : ∀ box ∈ (reg.applyPositions positions).layoutNodes,
      ∃ position, positions.get? box.id = some position := by
    intro box mem
    rw [layoutNodes_applyPositions] at mem
    exact Option.isSome_iff_exists.mp (places _ _ box mem)
  constructor
  · intro node mem
    rw [nodesEq, edgesEq]
    have listed : (⟨node.id, node.size.x, node.size.y⟩ : LayoutNode R) ∈
        (reg.applyPositions positions).layoutNodes :=
      List.mem_append_left _ (List.mem_map.mpr ⟨node, mem, rfl⟩)
    obtain ⟨position, found⟩ := placed _ listed
    rw [class_position_applyPositions mem found]
    exact found
  · intro node mem
    rw [nodesEq, edgesEq]
    have listed : (⟨node.id, node.size.x, node.size.y⟩ : LayoutNode R) ∈
        (reg.applyPositions positions).layoutNodes :=
      List.mem_append_right _ (List.mem_map.mpr ⟨node, mem, rfl⟩)
    obtain ⟨position, found⟩ := placed _ listed
    have noClasses : reg.classes.keys = [] := by
      rw [← keys_classes_applyPositions reg positions, List.eq_nil_iff_forall_not_mem]
      intro id known
      have noStandalone := coherentMoved.standalone_eq_nil known
      have stored : node ∈ (reg.applyPositions positions).standalone.items := mem
      rw [noStandalone] at stored
      cases stored
    rw [standalone_position_applyPositions noClasses mem found]
    exact found
  · rw [Balanced, slots, List.append_assoc] at balancedMoved
    apply names_routeAll _ balancedMoved.swap
    intro edge mem
    obtain ⟨_, _, _, _, _, _, route⟩ := coherentMoved.exists_route mem
    exact ⟨_, route⟩

end Registry

end CodeAtlas
