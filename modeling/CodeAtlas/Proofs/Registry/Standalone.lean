import CodeAtlas.Proofs.Registry.Boxes

/-!
# Boxes of standalone nodes

A standalone node gets its size, its label and its outline when it comes on the
map, and all of them follow from its kind and its name.  Nothing changes them
later: only classes are refreshed, and classes and standalone nodes are never on
one map.
-/

namespace CodeAtlas

variable {R : Type} [Scalar R] {reg : Registry R} {state : Ingest R}

/-- The size of a box with a text alone. -/
def NodeMetrics.standaloneSize (metrics : NodeMetrics R) (text : TextMetrics R)
    (shown : String) : Vec R :=
  ⟨Scalar.ceil (Scalar.max (metrics.textWidth text shown) metrics.minWidth),
    metrics.standaloneHeight⟩

/-- The text on the box of a standalone node. -/
def StandaloneNode.boxText (node : StandaloneNode R) : String :=
  labelText node.kind node.name

namespace Registry

/-- The box of a standalone node has the size of its text, and its slots stand
for the label of the text and the outline of the size. -/
structure Houses (reg : Registry R) (node : StandaloneNode R) : Prop where
  size : node.size = reg.metrics.standaloneSize reg.text node.boxText
  label : ∀ id ∈ node.label, reg.pool.Names id (reg.nameplate node.boxText)
  outline : ∀ id ∈ node.outline,
    reg.pool.Names id (.shape (reg.metrics.outline node.size))

/-- Every standalone node has its box. -/
def Housed (reg : Registry R) : Prop :=
  ∀ node ∈ reg.standalone.items, reg.Houses node

theorem housed_of_empty (noStandalone : reg.standalone.items = []) :
    reg.Housed := by
  rw [Housed, noStandalone]
  intro node mem
  cases mem

/-- Boxes stay as they are, wherever they stand, while no shape but lines of
edges is drawn anew. -/
theorem Housed.of_older {reg other : Registry R} (housed : reg.Housed)
    {redrawn : List Slot} (evolves : reg.pool.Evolves other.pool redrawn)
    (text : other.text = reg.text) (metrics : other.metrics = reg.metrics)
    (apart : ∀ node ∈ reg.standalone.items, ∀ slot ∈ node.slots, slot ∉ redrawn)
    (standalone : ∀ node ∈ other.standalone.items,
      ∃ old ∈ reg.standalone.items, ∃ position, node = { old with position }) :
    other.Housed := by
  intro node mem
  rcases standalone node mem with ⟨old, oldMem, position, rfl⟩
  have before := housed old oldMem
  constructor
  · rw [text, metrics]
    exact before.size
  · intro id labelled
    rw [nameplate, text, metrics]
    apply (before.label id labelled).evolve evolves
    exact apart old oldMem _ (List.mem_append_left _ (Slot.mem_filled_iff.mpr ⟨labelled, rfl⟩))
  · intro id outlined
    rw [metrics]
    apply (before.outline id outlined).evolve evolves
    exact apart old oldMem _ (List.mem_append_right _ (Slot.mem_filled_iff.mpr ⟨outlined, rfl⟩))

/-- Fewer nodes, and another pool. -/
theorem Housed.of_subset {reg other : Registry R} (housed : reg.Housed)
    (evolves : reg.pool.Evolves other.pool []) (text : other.text = reg.text)
    (metrics : other.metrics = reg.metrics)
    (standalone : ∀ node ∈ other.standalone.items, node ∈ reg.standalone.items) :
    other.Housed :=
  housed.of_older evolves text metrics (fun _ _ _ _ => List.not_mem_nil)
    fun node mem => ⟨node, standalone node mem, node.position, rfl⟩

/-! ## Classes, rows and places -/

section

variable (housed : reg.Housed) (coherent : reg.Coherent)
include housed coherent

/-- Where there is a class to refresh there is no box of another kind. -/
theorem Housed.refreshClass (classId : NodeId) : (reg.refreshClass classId).Housed := by
  cases found : reg.classes.get? classId with
  | none =>
    rw [Registry.refreshClass, found]
    exact housed
  | some node =>
    rw [refreshClass_of_get? found]
    exact housed_of_empty (coherent.standalone_eq_nil (Store.mem_keys_of_get? found))

theorem Housed.refreshClasses (ids : List NodeId) :
    (ids.foldl Registry.refreshClass reg).Housed := by
  induction ids generalizing reg with
  | nil => exact housed
  | cons id rest ih =>
    exact ih (housed.refreshClass coherent id) (coherent.refreshClass id)

theorem Housed.rowsChange {result : Bool × Registry R} (change : reg.RowsChange result) :
    result.2.Housed := by
  rcases change with rfl | ⟨classId, toggles, focus, focusListed, rfl⟩
  · exact housed
  · have configured : (reg.reconfigure classId toggles focus).Housed :=
      housed.of_subset (Pool.Evolves.refl _) rfl rfl fun _ mem => mem
    exact configured.refreshClass (coherent.reconfigure toggles focusListed) classId

end

theorem Housed.applyPositions (housed : reg.Housed)
    (positions : Positions R) : (reg.applyPositions positions).Housed := by
  apply List.foldlRecOn (motive := fun (moved : Registry R) => moved.Housed) positions
  · exact housed
  · rintro moved held ⟨id, position⟩ _
    dsimp only
    unfold moveTo
    split
    · exact held.of_subset (Pool.Evolves.refl _) rfl rfl fun _ mem => mem
    · have still : moved.pool.Evolves moved.pool [] := Pool.Evolves.refl _
      refine held.of_older still rfl rfl (fun _ _ _ _ => List.not_mem_nil) ?_
      intro node mem
      rcases Store.mem_modify.mp mem with ⟨old, oldMem, _, rfl⟩ | ⟨old, _⟩
      · exact ⟨old, oldMem, position, rfl⟩
      · exact ⟨node, old, node.position, rfl⟩

omit [Scalar R] in
/-- No slot of a standalone node is the line of an edge. -/
theorem Balanced.standalone_apart_edges {lent : List Slot} (balanced : reg.Balanced lent)
    {node : StandaloneNode R} (mem : node ∈ reg.standalone.items) :
    ∀ slot ∈ node.slots, slot ∉ reg.edges.items.flatMap Edge.slots := by
  intro slot own shared
  have boxes : slot ∈ reg.standalone.items.flatMap StandaloneNode.slots :=
    List.mem_flatMap.mpr ⟨node, mem, own⟩
  have held := balanced.distinct
  rw [List.map_append, slots, List.map_append] at held
  have disjoint := List.disjoint_of_nodup_append held.of_append_left
  refine disjoint (List.mem_map_of_mem ?_) (List.mem_map_of_mem shared)
  exact List.mem_append_right _ boxes

theorem Housed.updateEdgeGeometry {lent : List Slot} (housed : reg.Housed)
    (balanced : reg.Balanced lent) :
    reg.updateEdgeGeometry.Housed :=
  housed.of_older (evolves_updateEdgeGeometry reg) rfl rfl
    (fun _ mem => balanced.standalone_apart_edges mem)
    fun node mem => ⟨node, mem, node.position, rfl⟩

/-! ## Removal -/

theorem Housed.deleteNode (housed : reg.Housed) (coherent : reg.Coherent)
    (id : NodeId) : (reg.deleteNode id).2.Housed := by
  rcases reg.deleteNode_cases id with ⟨node, _, deleted⟩ | ⟨method, _, found, deleted⟩ |
      ⟨node, _, _, _, deleted⟩ | ⟨_, same⟩
  · rw [deleted]
    exact housed.of_subset (reg.evolves_deleteClass node) rfl rfl fun _ mem => mem
  · rw [deleted, deleteMethod_eq]
    have without : (reg.withoutMethod method).Housed :=
      housed.of_subset (reg.evolves_withoutMethod method) rfl rfl fun _ mem => mem
    exact without.refreshClass (coherent.withoutMethod (Store.mem_of_get? found)) _
  · rw [deleted]
    exact housed.of_subset (reg.evolves_deleteStandalone node) rfl rfl
      fun _ mem => (Store.mem_erase.mp mem).1
  · rw [same]
    exact housed

theorem Housed.focusOnClass (housed : reg.Housed) (coherent : reg.Coherent) (classId : NodeId) :
    (reg.focusOnClass classId).2.Housed := by
  apply (coherent.focusOnClass_induction classId
    (motive := fun (left : Registry R) => left.Housed) housed _ _).2
  · exact housed.of_subset (reg.evolves_removeEdges _) rfl rfl fun _ mem => mem
  · exact fun left coherentLeft held id _ => held.deleteNode coherentLeft id

/-! ## Taking in data -/

/-- A node comes on the map with its box. -/
theorem Housed.insert (housed : reg.Housed) {item : StandaloneNode R}
    {labelled drawn : ResourceId × Pool R}
    (label : reg.pool.allocate (reg.nameplate item.boxText) = labelled)
    (outline : labelled.2.allocate (.shape (reg.metrics.outline item.size)) = drawn)
    (size : item.size = reg.metrics.standaloneSize reg.text item.boxText)
    (labelSlot : item.label = some labelled.1) (outlineSlot : item.outline = some drawn.1) :
    { reg with
      pool := drawn.2, standalone := reg.standalone.insert item }.Housed := by
  subst label
  subst outline
  intro node mem
  rcases Store.eq_or_mem_of_mem_insert mem with rfl | old
  · refine ⟨size, ?_, ?_⟩
    · intro id isLabel
      obtain rfl := Option.some.inj (labelSlot.symm.trans isLabel)
      exact (Pool.names_allocate reg.pool _).evolve (Pool.evolves_allocate _ _)
        List.not_mem_nil
    · intro id isOutline
      obtain rfl := Option.some.inj (outlineSlot.symm.trans isOutline)
      exact Pool.names_allocate _ _
  · have evolves : reg.pool.Evolves _ [] :=
      (Pool.evolves_allocate _ (reg.nameplate item.boxText)).trans
        (Pool.evolves_allocate _ (.shape (reg.metrics.outline item.size)))
    have before := housed node old
    exact ⟨before.size, fun id isLabel => (before.label id isLabel).evolve evolves List.not_mem_nil,
      fun id isOutline => (before.outline id isOutline).evolve evolves List.not_mem_nil⟩

theorem Housed.architectureNode (housed : state.registry.Housed) (node : Node) :
    (state.architectureNode node).registry.Housed := by
  unfold Ingest.architectureNode
  split
  · exact housed
  · exact housed.insert rfl rfl rfl rfl rfl

theorem Housed.addData (housed : reg.Housed) (coherent : reg.Coherent) (nodes : List Node)
    (links : List Relationship) :
    (reg.addData nodes links).2.Housed := by
  change (reg.withData nodes links).registry.Housed
  apply coherent.withData_induction (motive := fun (state : Ingest R) => state.registry.Housed)
    housed
  · intro state _ held node _
    rcases Ingest.technicalNode_cases state node with same | ⟨_, _, added⟩ | ⟨_, _, added⟩
    · rw [same]
      exact held
    · rw [added]
      exact held.of_subset (Pool.Evolves.refl _) rfl rfl fun _ mem => mem
    · rw [added]
      exact held
  · intro state _ held link
    rcases Ingest.claimMethod_cases state link with same | ⟨_, _, _, _, claimed⟩
    · rw [same]
      exact held
    · rw [claimed]
      exact held.of_subset (Pool.Evolves.refl _) rfl rfl fun _ mem => mem
  · exact fun state ready held => held.refreshClasses ready.coherent _
  · exact fun state _ held node => held.architectureNode node
  · intro state held link
    rcases Ingest.edge_cases state link with ⟨_, same⟩ | ⟨_, _, _, _, added⟩
    · rw [same]
      exact held
    · rw [added]
      exact held.of_subset (Pool.Evolves.refl _) rfl rfl fun _ mem => mem

/-! ## All steps -/

theorem Housed.apply {lent : List Slot} (housed : reg.Housed)
    (balanced : reg.Balanced lent) (coherent : reg.Coherent) (operation : Operation R) :
    (reg.apply operation).Housed := by
  by_cases rows : operation.isRows = true
  · rcases coherent.rowsChange_apply rows with ⟨_, change⟩
    exact housed.rowsChange coherent change
  cases operation with
  | setPerspective perspective =>
    unfold Registry.apply setPerspective
    dsimp only
    split
    · exact housed
    · exact housed_of_empty rfl
  | setData nodes links =>
    exact (housed_of_empty rfl : reg.clear.Housed).addData (coherent_clear reg) nodes
      links
  | addData nodes links => exact housed.addData coherent nodes links
  | deleteNode id => exact housed.deleteNode coherent id
  | clear => exact housed_of_empty rfl
  | focusOnClass classId => exact housed.focusOnClass coherent classId
  | applyPositions positions => exact housed.applyPositions positions
  | updateEdgeGeometry => exact housed.updateEdgeGeometry balanced
  | _ => exact absurd rfl rows

/-- On every reachable map the standalone nodes have their boxes. -/
theorem Reachable.housed {drawn : Option (SequenceView R)}
    (reachable : reg.Reachable drawn) : reg.Housed := by
  induction reachable with
  | create metrics toggles text => exact housed_of_empty rfl
  | operate before operation _ housed =>
    exact housed.apply before.balanced before.coherent operation
  | draw _ _ _ _ built housed =>
    have evolves := SequenceView.evolves_build built
    rcases eq_of_build built with ⟨_, rfl, _⟩
    exact housed.of_subset evolves rfl rfl fun _ mem => mem
  | giveBack _ housed =>
    exact housed.of_subset (Pool.evolves_releaseAll _ _) rfl rfl fun _ mem => mem

end Registry

end CodeAtlas
