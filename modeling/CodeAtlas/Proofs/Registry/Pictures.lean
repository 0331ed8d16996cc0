import CodeAtlas.Proofs.PoolContents
import CodeAtlas.Proofs.Reachable

/-!
# What the pictures show

The label of a row shows the text that is kept with the row, the label of a
header shows the header, and an outline is drawn for the size of its box.  This
holds of every slot at any time, also of rows that are hidden or behind their
class, because whoever changes a text or a size changes the picture with it.
-/

namespace CodeAtlas

variable {R : Type} [Scalar R] {reg : Registry R} {state : Ingest R} {lent : List Slot}
  {node : ClassNode R}

namespace Registry

/-- The label of a text on a box. -/
def nameplate (reg : Registry R) (text : String) : Resource R :=
  .label (reg.text.rasterize text reg.metrics.labelStyle)

/-- The labels of methods show the texts kept with them. -/
def RowsDepicted (reg : Registry R) (methods : Store Method) (pool : Pool R) : Prop :=
  ∀ method ∈ methods.items, ∀ id ∈ method.label,
    pool.Names id (reg.nameplate method.labelText)

/-- Every slot of a class or method shows what it should. -/
structure Depicted (reg : Registry R) : Prop where
  rows : reg.RowsDepicted reg.methods reg.pool
  headers : ∀ node ∈ reg.classes.items, ∀ id ∈ node.headerLabel,
    reg.pool.Names id (reg.nameplate node.headerText)
  outlines : ∀ node ∈ reg.classes.items, ∀ id ∈ node.outline,
    reg.pool.Names id (.shape (reg.metrics.outline node.size))

theorem depicted_of_empty (noClasses : reg.classes.items = [])
    (noMethods : reg.methods.items = []) : reg.Depicted := by
  constructor
  · rw [RowsDepicted, noMethods]
    intro method mem
    cases mem
  · rw [noClasses]
    intro node mem
    cases mem
  · rw [noClasses]
    intro node mem
    cases mem

section

variable {other : Registry R} (depicted : reg.Depicted) (evolves : reg.pool.Evolves other.pool [])
  (text : other.text = reg.text) (metrics : other.metrics = reg.metrics)
include depicted evolves text metrics

/-- Labels and outlines stay as they are while nothing is drawn anew: new
methods and classes have none yet, and an old class may change in everything but
its header, its size and their pictures. -/
theorem Depicted.of_older (methods : ∀ method ∈ other.methods.items,
      method.label = none ∨ method ∈ reg.methods.items)
    (classes : ∀ node ∈ other.classes.items,
      (node.headerLabel = none ∧ node.outline = none) ∨
        ∃ old ∈ reg.classes.items, node.headerLabel = old.headerLabel ∧
          node.headerText = old.headerText ∧ node.outline = old.outline ∧ node.size = old.size) :
    other.Depicted := by
  have plateEq : other.nameplate = reg.nameplate := by
    funext shown
    rw [nameplate, nameplate, text, metrics]
  constructor
  · intro method mem id labelled
    rcases methods method mem with unlabelled | old
    · rw [unlabelled] at labelled
      cases labelled
    · rw [plateEq]
      exact (depicted.rows method old id labelled).evolve evolves List.not_mem_nil
  · intro node mem id labelled
    rcases classes node mem with ⟨unlabelled, _⟩ | ⟨old, oldMem, label, header, _, _⟩
    · rw [unlabelled] at labelled
      cases labelled
    · rw [label] at labelled
      rw [plateEq, header]
      exact (depicted.headers old oldMem id labelled).evolve evolves List.not_mem_nil
  · intro node mem id outlined
    rcases classes node mem with ⟨_, unlabelled⟩ | ⟨old, oldMem, _, _, outline, size⟩
    · rw [unlabelled] at outlined
      cases outlined
    · rw [outline] at outlined
      rw [metrics, size]
      exact (depicted.outlines old oldMem id outlined).evolve evolves List.not_mem_nil

/-- Fewer classes and methods, and another pool. -/
theorem Depicted.of_subset (methods : ∀ method ∈ other.methods.items, method ∈ reg.methods.items)
    (classes : ∀ node ∈ other.classes.items, node ∈ reg.classes.items) : other.Depicted := by
  apply depicted.of_older evolves text metrics
  · exact fun method mem => Or.inr (methods method mem)
  · exact fun node mem => Or.inr ⟨node, classes node mem, rfl, rfl, rfl, rfl⟩

end

/-! ## Refreshing a class -/

section

variable (reg) (node)

theorem evolves_labelRow (pool : Pool R) (method : Method) :
    pool.Evolves (reg.labelRow node pool method).2 [] := by
  unfold labelRow
  dsimp only
  split
  · exact (Pool.evolves_releaseSlot pool _).trans (Pool.evolves_allocate _ _)
  · exact Pool.Evolves.refl pool

theorem names_labelRow (method : Method) {pool : Pool R}
    (named : ∀ id ∈ method.label, pool.Names id (reg.nameplate method.labelText)) :
    ∀ id ∈ (reg.labelRow node pool method).1.label,
      (reg.labelRow node pool method).2.Names id
        (reg.nameplate (reg.labelRow node pool method).1.labelText) := by
  unfold labelRow
  dsimp only
  split
  · rintro id ⟨⟩
    exact Pool.names_allocate _ _
  · exact named

theorem evolves_refreshRow (state : RowState R) (id : NodeId) :
    state.pool.Evolves (reg.refreshRow node state id).pool [] := by
  unfold refreshRow
  cases state.methods.get? id with
  | none => exact Pool.Evolves.refl _
  | some method =>
    dsimp only
    split
    · exact reg.evolves_labelRow node state.pool _
    · exact Pool.Evolves.refl _

theorem evolves_refreshRows (ids : List NodeId) (state : RowState R) :
    state.pool.Evolves (ids.foldl (reg.refreshRow node) state).pool [] := by
  induction ids generalizing state with
  | nil => exact Pool.Evolves.refl _
  | cons id rest ih =>
    exact (reg.evolves_refreshRow node state id).trans (ih _)

end

theorem RowsDepicted.refreshRow {state : RowState R}
    (depicted : reg.RowsDepicted state.methods state.pool) (node : ClassNode R) (id : NodeId) :
    reg.RowsDepicted (reg.refreshRow node state id).methods
      (reg.refreshRow node state id).pool := by
  unfold Registry.refreshRow
  cases found : state.methods.get? id with
  | none => exact depicted
  | some method =>
    let shown := { method with visible := method.isShown node.toggles node.focusedMethod }
    have named := depicted method (Store.mem_of_get? found)
    have evolves := reg.evolves_labelRow node state.pool shown
    dsimp only
    split
    · intro row mem label isLabel
      rcases Store.mem_modify.mp mem with ⟨_, _, _, rfl⟩ | ⟨old, _⟩
      · exact names_labelRow reg node shown named label isLabel
      · exact (depicted row old label isLabel).evolve evolves List.not_mem_nil
    · intro row mem
      rcases Store.mem_modify.mp mem with ⟨_, _, _, rfl⟩ | ⟨old, _⟩
      · exact named
      · exact depicted row old

theorem RowsDepicted.refreshRows {state : RowState R}
    (depicted : reg.RowsDepicted state.methods state.pool) (node : ClassNode R)
    (ids : List NodeId) :
    reg.RowsDepicted (ids.foldl (reg.refreshRow node) state).methods
      (ids.foldl (reg.refreshRow node) state).pool := by
  induction ids generalizing state with
  | nil => exact depicted
  | cons id rest ih => exact ih (depicted.refreshRow node id)

theorem evolves_labelHeader (reg : Registry R) (node : ClassNode R) :
    reg.pool.Evolves (reg.labelHeader node).2 [] := by
  unfold labelHeader
  cases node.headerLabel with
  | some label => exact Pool.Evolves.refl _
  | none => exact Pool.evolves_allocate _ _

theorem names_labelHeader
    (named : ∀ id ∈ node.headerLabel, reg.pool.Names id (reg.nameplate node.headerText)) :
    ∀ id ∈ (reg.labelHeader node).1,
      (reg.labelHeader node).2.Names id (reg.nameplate node.headerText) := by
  unfold labelHeader
  cases header : node.headerLabel with
  | some label =>
    rw [header] at named
    exact named
  | none =>
    rintro id ⟨⟩
    exact Pool.names_allocate _ _

/-! ## Slots -/

section
omit [Scalar R]

theorem mem_slots_of_class {slot : Slot} (mem : node ∈ reg.classes.items)
    (own : slot ∈ node.slots) : slot ∈ reg.slots := by
  simp only [slots, List.mem_append, List.mem_flatMap]
  exact Or.inl (Or.inl (Or.inl ⟨node, mem, own⟩))

theorem mem_slots_of_method {method : Method} {slot : Slot} (mem : method ∈ reg.methods.items)
    (own : slot ∈ method.slots) :
    slot ∈ reg.slots := by
  simp only [slots, List.mem_append, List.mem_flatMap]
  exact Or.inl (Or.inl (Or.inr ⟨method, mem, own⟩))

theorem ClassNode.mem_slots_of_outline {id : ResourceId}
    (outlined : id ∈ node.outline) : (id, ResourceKind.shape) ∈ node.slots :=
  List.mem_append_right _ (Slot.mem_filled_iff.mpr ⟨outlined, rfl⟩)

/-- Different classes have different outlines. -/
theorem Balanced.outline_apart (balanced : reg.Balanced lent)
    (distinct : reg.classes.keys.Nodup) {node other : ClassNode R}
    (mem : node ∈ reg.classes.items) (otherMem : other ∈ reg.classes.items)
    (different : other.id ≠ node.id) {id : ResourceId} (outlined : id ∈ other.outline) :
    (id, ResourceKind.shape) ∉ Slot.filled .shape node.outline := by
  obtain ⟨_, whole, _, rfl⟩ :=
    Store.exists_flatMap_rest distinct (Store.get?_of_mem distinct mem) ClassNode.slots
  let left := { reg with classes := reg.classes.erase node.id }
  have apart := Pool.Holds.of_perm balanced
    (slots_perm_of_parts left node.slots [] [] [] lent whole (List.Perm.refl _) (List.Perm.refl _)
      (List.Perm.refl _))
  have disjoint := List.disjoint_of_nodup_append (List.map_append ▸ apart.distinct)
  intro shared
  have own : (id, ResourceKind.shape) ∈ node.slots := List.mem_append_right _ shared
  have stays : other ∈ left.classes.items := Store.mem_erase.mpr ⟨otherMem, different⟩
  have others : (id, ResourceKind.shape) ∈ left.slots :=
    mem_slots_of_class stays (ClassNode.mem_slots_of_outline outlined)
  exact disjoint (List.mem_map_of_mem own) (List.mem_map_of_mem (List.mem_append_left lent others))

/-- The outline of a class is no line of an edge. -/
theorem Balanced.outline_apart_edges (balanced : reg.Balanced lent)
    (mem : node ∈ reg.classes.items) {id : ResourceId} (outlined : id ∈ node.outline) :
    (id, ResourceKind.shape) ∉ reg.edges.items.flatMap Edge.slots := by
  have own : (id, ResourceKind.shape) ∈ reg.classes.items.flatMap ClassNode.slots :=
    List.mem_flatMap.mpr ⟨node, mem, ClassNode.mem_slots_of_outline outlined⟩
  have held := balanced.distinct
  rw [List.map_append, slots, List.map_append] at held
  have disjoint := List.disjoint_of_nodup_append held.of_append_left
  intro shared
  refine disjoint (List.mem_map_of_mem ?_) (List.mem_map_of_mem shared)
  exact List.mem_append_left _ (List.mem_append_left _ own)

end

/-- The rows of a class before they are refreshed, with the header in place. -/
def rowsStart (reg : Registry R) (node : ClassNode R) : RowState R :=
  { methods := reg.methods
    pool := (reg.labelHeader node).2
    width := Scalar.max (reg.metrics.textWidth reg.text node.headerText)
      reg.metrics.minWidth
    visibleRows := 0 }

/-- The rows of a class after they are refreshed. -/
def refreshedRows (reg : Registry R) (node : ClassNode R) : RowState R :=
  node.methods.foldl (reg.refreshRow node) (reg.rowsStart node)

/-- The size of a class after its rows are refreshed. -/
def refreshedSize (reg : Registry R) (node : ClassNode R) : Vec R :=
  ⟨Scalar.ceil (reg.refreshedRows node).width,
    reg.metrics.classHeight (reg.refreshedRows node).visibleRows⟩

/-- The outline of a class after it is drawn anew, and the pool that holds it. -/
def redrawnOutline (reg : Registry R) (node : ClassNode R) : ResourceId × Pool R :=
  (reg.refreshedRows node).pool.upsertShape node.outline
    (reg.metrics.outline (reg.refreshedSize node))

theorem refreshClass_of_get? {classId : NodeId} (found : reg.classes.get? classId = some node) :
    reg.refreshClass classId = { reg with
      methods := (reg.refreshedRows node).methods
      pool := (reg.redrawnOutline node).2
      classes := reg.classes.modify classId fun old =>
        { old with
          headerLabel := (reg.labelHeader node).1
          size := reg.refreshedSize node
          outline := some (reg.redrawnOutline node).1 } } := by
  rw [refreshClass, found]
  rfl

theorem evolves_refreshedRows (reg : Registry R) (node : ClassNode R) :
    (reg.labelHeader node).2.Evolves (reg.refreshedRows node).pool [] :=
  reg.evolves_refreshRows node node.methods (reg.rowsStart node)

theorem Depicted.refreshedRows (depicted : reg.Depicted) (node : ClassNode R) :
    reg.RowsDepicted (reg.refreshedRows node).methods
      (reg.refreshedRows node).pool := by
  have start : reg.RowsDepicted (reg.rowsStart node).methods
      (reg.rowsStart node).pool := by
    intro method methodMem id labelled
    exact (depicted.rows method methodMem id labelled).evolve (reg.evolves_labelHeader node)
      List.not_mem_nil
  exact start.refreshRows node node.methods

theorem evolves_redrawnOutline (reg : Registry R) (node : ClassNode R) :
    (reg.refreshedRows node).pool.Evolves (reg.redrawnOutline node).2
      (Slot.filled .shape node.outline) :=
  Pool.evolves_upsertShape _ _ _ fun _ filled => filled

section

variable (depicted : reg.Depicted) (balanced : reg.Balanced lent) (coherent : reg.Coherent)
include depicted balanced coherent

/-- Refreshing a class changes texts and size together with the pictures. -/
theorem Depicted.refreshClass (classId : NodeId) : (reg.refreshClass classId).Depicted := by
  cases found : reg.classes.get? classId with
  | none =>
    rw [Registry.refreshClass, found]
    exact depicted
  | some node =>
    rw [refreshClass_of_get? found]
    have nodeMem := Store.mem_of_get? found
    have nodeId : node.id = classId := Store.key_of_get? found
    have headerNamed := names_labelHeader (depicted.headers node nodeMem)
    have rowsEvolve := reg.evolves_refreshedRows node
    have rowsNamed := depicted.refreshedRows node
    have labelled := (reg.evolves_labelHeader node).trans rowsEvolve
    have drawn := reg.evolves_redrawnOutline node
    have whole := (labelled.weaken _).trans drawn
    have labelsApart : ∀ (id : ResourceId) (text : String),
        (id, (reg.nameplate text).kind) ∉ Slot.filled .shape node.outline := by
      intro id text filled
      cases (Slot.mem_filled_iff.mp filled).2
    constructor
    · intro method mem id isLabel
      exact (rowsNamed method mem id isLabel).evolve drawn (labelsApart id _)
    · intro other mem id isLabel
      rcases Store.mem_modify.mp mem with ⟨old, oldMem, same, rfl⟩ | ⟨old, _⟩
      · obtain rfl : old = node :=
          Store.eq_of_key_eq coherent.classKeys oldMem nodeMem (same.trans nodeId.symm)
        have kept := (headerNamed id isLabel).evolve rowsEvolve List.not_mem_nil
        exact kept.evolve drawn (labelsApart id _)
      · exact (depicted.headers other old id isLabel).evolve whole (labelsApart id _)
    · intro other mem id outlined
      rcases Store.mem_modify.mp mem with ⟨old, oldMem, same, rfl⟩ | ⟨old, different⟩
      · obtain rfl := Option.mem_some.mp outlined
        apply Pool.names_upsertShape
        intro before outlinedBefore
        have given := balanced.bound _ (List.mem_append_left lent
          (mem_slots_of_class nodeMem (ClassNode.mem_slots_of_outline outlinedBefore)))
        exact Nat.le_trans given labelled.numbers
      · have apart := balanced.outline_apart coherent.classKeys nodeMem old
          (fun same => different (same.trans nodeId)) outlined
        exact (depicted.outlines other old id outlined).evolve whole apart

theorem Depicted.refreshClasses (ids : List NodeId) :
    (ids.foldl Registry.refreshClass reg).Depicted := by
  induction ids generalizing reg with
  | nil => exact depicted
  | cons id rest ih =>
    exact ih (depicted.refreshClass balanced coherent id)
      (balanced.refreshClass coherent id) (coherent.refreshClass id)

theorem Depicted.rowsChange {result : Bool × Registry R} (change : reg.RowsChange result) :
    result.2.Depicted := by
  rcases change with rfl | ⟨classId, toggles, focus, focusListed, rfl⟩
  · exact depicted
  · have configured : (reg.reconfigure classId toggles focus).Depicted := by
      refine depicted.of_older (Pool.Evolves.refl _) rfl rfl ?_ ?_
      · exact fun method mem => Or.inr mem
      · intro node mem
        rcases Store.mem_modify.mp mem with ⟨old, oldMem, _, rfl⟩ | ⟨old, _⟩
        · exact Or.inr ⟨old, oldMem, rfl, rfl, rfl, rfl⟩
        · exact Or.inr ⟨node, old, rfl, rfl, rfl, rfl⟩
    exact configured.refreshClass (balanced.modifyClass classId fun _ => rfl)
      (coherent.reconfigure toggles focusListed) classId

end

/-! ## Places and lines -/

theorem Depicted.applyPositions (depicted : reg.Depicted)
    (positions : Positions R) : (reg.applyPositions positions).Depicted := by
  apply List.foldlRecOn (motive := fun (moved : Registry R) => moved.Depicted) positions
  · exact depicted
  · rintro moved held ⟨id, position⟩ _
    dsimp only
    unfold moveTo
    split
    · refine held.of_older (Pool.Evolves.refl _) rfl rfl ?_ ?_
      · exact fun method mem => Or.inr mem
      · intro node mem
        rcases Store.mem_modify.mp mem with ⟨old, oldMem, _, rfl⟩ | ⟨old, _⟩
        · exact Or.inr ⟨old, oldMem, rfl, rfl, rfl, rfl⟩
        · exact Or.inr ⟨node, old, rfl, rfl, rfl, rfl⟩
    · exact held.of_subset (Pool.Evolves.refl _) rfl rfl (fun _ mem => mem) fun _ mem => mem

/-- Routing redraws the lines of edges only. -/
theorem evolves_routeAll (reg : Registry R) (edges : List Edge) (pool : Pool R)
    {redrawn : List Slot} (listed : ∀ edge ∈ edges, ∀ slot ∈ edge.slots, slot ∈ redrawn) :
    pool.Evolves (reg.routeAll edges pool).2 redrawn := by
  induction edges generalizing pool with
  | nil => exact Pool.Evolves.refl pool
  | cons edge rest ih =>
    have restListed : ∀ other ∈ rest, ∀ slot ∈ other.slots, slot ∈ redrawn :=
      fun other mem => listed other (List.mem_cons_of_mem _ mem)
    unfold routeAll
    cases reg.route edge with
    | none => exact ih pool restListed
    | some points =>
      have drawn : pool.Evolves (pool.upsertShape edge.geometry points).2 redrawn :=
        Pool.evolves_upsertShape pool edge.geometry points (listed edge List.mem_cons_self)
      exact drawn.trans (ih _ restListed)

theorem evolves_updateEdgeGeometry (reg : Registry R) :
    reg.pool.Evolves reg.updateEdgeGeometry.pool
      (reg.edges.items.flatMap Edge.slots) :=
  evolves_routeAll reg reg.edges.items reg.pool
    fun edge mem _ own => List.mem_flatMap.mpr ⟨edge, mem, own⟩

theorem Depicted.updateEdgeGeometry (depicted : reg.Depicted) (balanced : reg.Balanced lent) :
    reg.updateEdgeGeometry.Depicted := by
  have routed := evolves_updateEdgeGeometry reg
  have labelsApart : ∀ (id : ResourceId) (text : String),
      (id, (reg.nameplate text).kind) ∉ reg.edges.items.flatMap Edge.slots := by
    intro id text mem
    obtain ⟨edge, _, own⟩ := List.mem_flatMap.mp mem
    cases (Slot.mem_filled_iff.mp own).2
  constructor
  · exact fun method mem id labelled =>
      (depicted.rows method mem id labelled).evolve routed (labelsApart id _)
  · exact fun node mem id labelled =>
      (depicted.headers node mem id labelled).evolve routed (labelsApart id _)
  · exact fun node mem id outlined =>
      (depicted.outlines node mem id outlined).evolve routed
        (balanced.outline_apart_edges mem outlined)

/-! ## Removal -/

section
omit [Scalar R]

theorem evolves_removeEdges (reg : Registry R) (doomed : Edge → Bool) :
    reg.pool.Evolves (reg.removeEdges doomed).pool [] :=
  Pool.evolves_releaseSlots _ Edge.geometry reg.pool

theorem evolves_deleteClass (reg : Registry R) (node : ClassNode R) :
    reg.pool.Evolves (reg.deleteClass node).pool [] := by
  apply Pool.Evolves.trans _ (evolves_removeEdges _ _)
  apply Pool.Evolves.trans _ (Pool.evolves_releaseSlots _ Method.label _)
  exact (Pool.evolves_releaseSlot _ _).trans (Pool.evolves_releaseSlot _ _)

theorem evolves_withoutMethod (reg : Registry R) (method : Method) :
    reg.pool.Evolves (reg.withoutMethod method).pool [] := by
  apply Pool.Evolves.trans _ (evolves_removeEdges _ _)
  exact Pool.evolves_releaseSlot _ _

theorem evolves_deleteStandalone (reg : Registry R) (node : StandaloneNode R) :
    reg.pool.Evolves (reg.deleteStandalone node).pool [] := by
  apply Pool.Evolves.trans _ (evolves_removeEdges _ _)
  exact (Pool.evolves_releaseSlot _ _).trans (Pool.evolves_releaseSlot _ _)

end

theorem Depicted.withoutMethod (depicted : reg.Depicted)
    (method : Method) : (reg.withoutMethod method).Depicted := by
  refine depicted.of_older (reg.evolves_withoutMethod method) rfl rfl ?_ ?_
  · exact fun other mem => Or.inr (Store.mem_erase.mp mem).1
  · intro node mem
    rcases Store.mem_modify.mp mem with ⟨old, oldMem, _, rfl⟩ | ⟨old, _⟩
    · exact Or.inr ⟨old, oldMem, rfl, rfl, rfl, rfl⟩
    · exact Or.inr ⟨node, old, rfl, rfl, rfl, rfl⟩

theorem Depicted.deleteNode (depicted : reg.Depicted) (balanced : reg.Balanced lent)
    (coherent : reg.Coherent) (id : NodeId) : (reg.deleteNode id).2.Depicted := by
  rcases reg.deleteNode_cases id with ⟨node, _, deleted⟩ | ⟨method, _, found, deleted⟩ |
      ⟨node, _, _, _, deleted⟩ | ⟨_, same⟩
  · rw [deleted]
    refine depicted.of_subset (reg.evolves_deleteClass node) rfl rfl ?_ ?_
    · exact fun _ mem => (Store.mem_foldl_erase.mp mem).1
    · exact fun _ mem => (Store.mem_erase.mp mem).1
  · rw [deleted, deleteMethod_eq]
    have mem := Store.mem_of_get? found
    exact (depicted.withoutMethod method).refreshClass (balanced.withoutMethod coherent mem)
      (coherent.withoutMethod mem) _
  · rw [deleted]
    exact depicted.of_subset (reg.evolves_deleteStandalone node) rfl rfl (fun _ mem => mem)
      fun _ mem => mem
  · rw [same]
    exact depicted

theorem Depicted.focusOnClass (depicted : reg.Depicted) (balanced : reg.Balanced lent)
    (coherent : reg.Coherent) (classId : NodeId) :
    (reg.focusOnClass classId).2.Depicted := by
  have kept := (coherent.focusOnClass_induction classId
    (motive := fun (left : Registry R) => left.Balanced lent ∧ left.Depicted)
    ⟨balanced, depicted⟩ ?_ ?_).2
  · exact kept.2
  · constructor
    · exact balanced.removeEdges fun _ => true
    · exact depicted.of_subset (reg.evolves_removeEdges _) rfl rfl (fun _ mem => mem)
        fun _ mem => mem
  · rintro left coherentLeft ⟨balancedLeft, depictedLeft⟩ id _
    exact ⟨balancedLeft.deleteNode coherentLeft id,
      depictedLeft.deleteNode balancedLeft coherentLeft id⟩

/-! ## Taking in data -/

section

variable (depicted : state.registry.Depicted)
include depicted

theorem Depicted.technicalNode (node : Node) : (state.technicalNode node).registry.Depicted := by
  rcases Ingest.technicalNode_cases state node with same | ⟨_, _, added⟩ | ⟨_, _, added⟩
  · rw [same]
    exact depicted
  · rw [added]
    refine depicted.of_older (Pool.Evolves.refl _) rfl rfl ?_ ?_
    · exact fun method mem => Or.inr mem
    · intro other mem
      rcases Store.eq_or_mem_of_mem_insert mem with rfl | old
      · exact Or.inl ⟨rfl, rfl⟩
      · exact Or.inr ⟨other, old, rfl, rfl, rfl, rfl⟩
  · rw [added]
    exact depicted

theorem Depicted.claimMethod (link : Relationship) :
    (state.claimMethod link).registry.Depicted := by
  rcases Ingest.claimMethod_cases state link with same | ⟨node, _, _, _, claimed⟩
  · rw [same]
    exact depicted
  · rw [claimed]
    refine depicted.of_older (Pool.Evolves.refl _) rfl rfl ?_ ?_
    · intro method mem
      rcases Store.eq_or_mem_of_mem_insert mem with rfl | old
      · exact Or.inl rfl
      · exact Or.inr old
    · intro other mem
      rcases Store.mem_modify.mp mem with ⟨old, oldMem, _, rfl⟩ | ⟨old, _⟩
      · exact Or.inr ⟨old, oldMem, rfl, rfl, rfl, rfl⟩
      · exact Or.inr ⟨other, old, rfl, rfl, rfl, rfl⟩

theorem Depicted.architectureNode (node : Node) :
    (state.architectureNode node).registry.Depicted := by
  rcases Ingest.architectureNode_cases state node with same | ⟨_, _, _, _, _, _, _, _, added⟩
  · rw [same]
    exact depicted
  · rw [added]
    exact depicted.of_subset ((Pool.evolves_allocate _ _).trans (Pool.evolves_allocate _ _)) rfl rfl
      (fun _ mem => mem) fun _ mem => mem

theorem Depicted.edge (link : Relationship) : (state.edge link).registry.Depicted := by
  rcases Ingest.edge_cases state link with ⟨_, same⟩ | ⟨_, _, _, _, added⟩
  · rw [same]
    exact depicted
  · rw [added]
    exact depicted.of_subset (Pool.Evolves.refl _) rfl rfl (fun _ mem => mem) fun _ mem => mem

end

theorem Depicted.addData (depicted : reg.Depicted) (balanced : reg.Balanced lent)
    (coherent : reg.Coherent) (nodes : List Node) (links : List Relationship) :
    (reg.addData nodes links).2.Depicted := by
  refine (coherent.withData_induction (motive := fun (state : Ingest R) =>
    state.registry.Balanced lent ∧ state.registry.Depicted) ⟨balanced, depicted⟩
    ?_ ?_ ?_ ?_ ?_ : _ ∧ (reg.withData nodes links).registry.Depicted).2
  · exact fun state _ held node _ => ⟨held.1.technicalNode node, held.2.technicalNode node⟩
  · exact fun state ready held link =>
      ⟨held.1.claimMethod ready link, held.2.claimMethod link⟩
  · exact fun state ready held => ⟨held.1.refreshClasses ready.coherent _,
      held.2.refreshClasses held.1 ready.coherent _⟩
  · exact fun state _ held node => ⟨held.1.architectureNode node, held.2.architectureNode node⟩
  · exact fun state held link => ⟨held.1.edge link, held.2.edge link⟩

/-! ## All steps -/

theorem Depicted.apply (depicted : reg.Depicted) (balanced : reg.Balanced lent)
    (coherent : reg.Coherent) (operation : Operation R) :
    (reg.apply operation).Depicted := by
  by_cases rows : operation.isRows = true
  · rcases coherent.rowsChange_apply rows with ⟨_, change⟩
    exact depicted.rowsChange balanced coherent change
  cases operation with
  | setPerspective perspective =>
    unfold Registry.apply setPerspective
    dsimp only
    split
    · exact depicted
    · exact depicted_of_empty rfl rfl
  | setData nodes links =>
    exact (depicted_of_empty rfl rfl : reg.clear.Depicted).addData (balanced_clear reg)
      (coherent_clear reg) nodes links
  | addData nodes links => exact depicted.addData balanced coherent nodes links
  | deleteNode id => exact depicted.deleteNode balanced coherent id
  | clear => exact depicted_of_empty rfl rfl
  | focusOnClass classId => exact depicted.focusOnClass balanced coherent classId
  | applyPositions positions => exact depicted.applyPositions positions
  | updateEdgeGeometry => exact depicted.updateEdgeGeometry balanced
  | _ => exact absurd rfl rows

end Registry

/-! ## Call diagrams -/

namespace SequenceView

theorem evolves_lanesFrom (settings : SequenceSettings R) (text : TextMetrics R)
    (callCount index : Nat) (named : List (NodeId × String)) (pool : Pool R) :
    pool.Evolves (lanesFrom settings text callCount index named pool).2 [] := by
  induction named generalizing index pool with
  | nil => exact Pool.Evolves.refl pool
  | cons first rest ih =>
    exact (Pool.evolves_allocate pool _).trans (ih _ _)

theorem evolves_arrowsFrom (settings : SequenceSettings R) (text : TextMetrics R)
    (lanes : List (Lane R)) (laneIds : List NodeId) (index : Nat) (calls : List Call)
    (pool : Pool R) :
    pool.Evolves (arrowsFrom settings text lanes laneIds index calls pool).2 [] := by
  induction calls generalizing index pool with
  | nil => exact Pool.Evolves.refl pool
  | cons call rest ih =>
    obtain ⟨bitmap, _, after⟩ := arrow_allocates settings text lanes laneIds index call pool
    have allocated : pool.Evolves (arrow settings text lanes laneIds index call pool).2 [] :=
      after ▸ Pool.evolves_allocate pool _
    exact allocated.trans (ih _ _)

/-- Drawing calls takes in new labels and replaces nothing. -/
theorem evolves_build {reg lending : Registry R} {root : NodeId}
    {settings : SequenceSettings R} {interaction : InteractionSettings R} {view : SequenceView R}
    (built : build reg root settings interaction = some (view, lending)) :
    reg.pool.Evolves lending.pool [] := by
  simp only [build, Option.bind_eq_bind, Option.bind_eq_some_iff, Option.pure_def,
    Option.some.injEq, Prod.mk.injEq] at built
  obtain ⟨calls, _, method, _, _, rfl⟩ := built
  exact (evolves_lanesFrom _ _ _ _ _ _).trans (evolves_arrowsFrom _ _ _ _ _ _ _)

end SequenceView

namespace Registry

theorem Reachable.depicted {drawn : Option (SequenceView R)}
    (reachable : reg.Reachable drawn) : reg.Depicted := by
  induction reachable with
  | create metrics toggles text => exact depicted_of_empty rfl rfl
  | operate before operation _ depicted =>
    exact depicted.apply before.balanced before.coherent operation
  | draw _ _ _ _ built depicted =>
    have evolves := SequenceView.evolves_build built
    obtain ⟨_, rfl, _⟩ := eq_of_build built
    exact depicted.of_subset evolves rfl rfl (fun _ mem => mem) fun _ mem => mem
  | giveBack _ depicted =>
    exact depicted.of_subset (Pool.evolves_releaseAll _ _) rfl rfl (fun _ mem => mem)
      fun _ mem => mem

end Registry

end CodeAtlas
