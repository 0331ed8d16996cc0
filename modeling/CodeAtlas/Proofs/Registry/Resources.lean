import CodeAtlas.Proofs.Pool
import CodeAtlas.Proofs.Registry.Ingest
import CodeAtlas.Proofs.Registry.Remove

/-!
# Who owns which resource

Every resource in a registry's pool stands in exactly one slot of one entity, or
is lent to somebody outside.  Each change of the registry keeps this balance,
whatever is lent.
-/

namespace CodeAtlas

variable {R : Type} [Scalar R] {reg : Registry R} {state : Ingest R} {lent : List Slot}

def Method.slots (method : Method) : List Slot :=
  Slot.filled .label method.label

def ClassNode.slots (node : ClassNode R) : List Slot :=
  Slot.filled .label node.headerLabel ++ Slot.filled .shape node.outline

def StandaloneNode.slots (node : StandaloneNode R) : List Slot :=
  Slot.filled .label node.label ++ Slot.filled .shape node.outline

def Edge.slots (edge : Edge) : List Slot :=
  Slot.filled .shape edge.geometry

/-- A change that a contribution does not see keeps what a store contributes. -/
theorem Store.flatMap_modify {α β : Type} [Keyed α] {store : Store α} {key : String}
    {change : α → α} {part : α → List β}
    (unseen : ∀ item, Keyed.key item = key → part (change item) = part item) :
    (store.modify key change).items.flatMap part = store.items.flatMap part := by
  rw [List.flatMap_def, List.flatMap_def, Store.map_modify unseen]

namespace Registry

/-- All slots of the entities on the map. -/
def slots (reg : Registry R) : List Slot :=
  reg.classes.items.flatMap ClassNode.slots ++ reg.methods.items.flatMap Method.slots ++
    reg.standalone.items.flatMap StandaloneNode.slots ++
    reg.edges.items.flatMap Edge.slots

/-- The pool holds exactly the slots of the map and those lent to others. -/
def Balanced (reg : Registry R) (lent : List Slot) : Prop :=
  reg.pool.Holds (reg.slots ++ lent)

section
omit [Scalar R]

/-- Balance depends only on the pool and the slots. -/
theorem Balanced.congr {reg other : Registry R} (balanced : reg.Balanced lent)
    (pool : other.pool = reg.pool)
    (slots : other.slots = reg.slots) : other.Balanced lent := by
  rw [Balanced, pool, slots]
  exact balanced

theorem Balanced.modifyClass (balanced : reg.Balanced lent) (classId : NodeId)
    {change : ClassNode R → ClassNode R} (unseen : ∀ node, (change node).slots = node.slots) :
    { reg with classes := reg.classes.modify classId change }.Balanced lent := by
  have same : (reg.classes.modify classId change).items.flatMap ClassNode.slots =
      reg.classes.items.flatMap ClassNode.slots :=
    Store.flatMap_modify fun node _ => unseen node
  refine balanced.congr rfl ?_
  simp only [slots, same]

theorem balanced_of_empty (slots : reg.slots = [])
    (pool : reg.pool.entries = []) : reg.Balanced [] := by
  rw [Balanced, slots]
  exact Pool.holds_nil_of_empty pool

theorem balanced_create (metrics : NodeMetrics R) (toggles : Toggles) (text : TextMetrics R) :
    (create metrics toggles text).Balanced [] :=
  balanced_of_empty rfl rfl

theorem balanced_clear (reg : Registry R) : reg.clear.Balanced [] :=
  balanced_of_empty rfl rfl

theorem Balanced.setPerspective (balanced : reg.Balanced [])
    (perspective : Perspective) : (reg.setPerspective perspective).2.Balanced [] := by
  unfold Registry.setPerspective
  split
  · exact balanced
  · exact balanced_of_empty rfl rfl

end

/-! ## Rows -/

theorem holds_labelRow (reg : Registry R) (node : ClassNode R) (method : Method)
    {pool : Pool R} {rest : List Slot} (holds : pool.Holds (method.slots ++ rest)) :
    (reg.labelRow node pool method).2.Holds
      ((reg.labelRow node pool method).1.slots ++ rest) := by
  unfold labelRow
  dsimp only
  split
  · exact holds.releaseSlot.allocateLabel _
  · exact holds

theorem holds_labelHeader {node : ClassNode R} {rest : List Slot}
    (holds : reg.pool.Holds (Slot.filled .label node.headerLabel ++ rest)) :
    (reg.labelHeader node).2.Holds
      (Slot.filled .label (reg.labelHeader node).1 ++ rest) := by
  unfold labelHeader
  cases header : node.headerLabel with
  | some label =>
    rw [header] at holds
    exact holds
  | none =>
    rw [header] at holds
    exact Pool.Holds.allocateLabel holds _

/-- Refreshing a row keeps the balance of the methods, whatever else there is. -/
theorem holds_refreshRow (reg : Registry R) (node : ClassNode R) (id : NodeId)
    {state : RowState R} {rest : List Slot} (distinct : state.methods.keys.Nodup)
    (holds : state.pool.Holds (state.methods.items.flatMap Method.slots ++ rest)) :
    (reg.refreshRow node state id).pool.Holds
      ((reg.refreshRow node state id).methods.items.flatMap Method.slots ++ rest) := by
  unfold refreshRow
  cases found : state.methods.get? id with
  | none => exact holds
  | some method =>
    obtain ⟨others, whole, changed, _⟩ := Store.exists_flatMap_rest distinct found Method.slots
    let shown := { method with visible := method.isShown node.toggles node.focusedMethod }
    have apart : state.pool.Holds (shown.slots ++ (others ++ rest)) := by
      rw [← List.append_assoc]
      exact holds.of_perm (whole.append_right rest)
    have together (row : Method) := (changed fun _ => row).symm.append_right rest
    dsimp only
    split
    · have labelled := holds_labelRow reg node shown apart
      rw [← List.append_assoc] at labelled
      exact labelled.of_perm (together _)
    · rw [← List.append_assoc] at apart
      exact apart.of_perm (together shown)

theorem holds_refreshRows (reg : Registry R) (node : ClassNode R) (ids : List NodeId)
    (state : RowState R) {rest : List Slot} (distinct : state.methods.keys.Nodup)
    (holds : state.pool.Holds (state.methods.items.flatMap Method.slots ++ rest)) :
    (ids.foldl (reg.refreshRow node) state).pool.Holds
      ((ids.foldl (reg.refreshRow node) state).methods.items.flatMap Method.slots ++ rest) := by
  induction ids generalizing state with
  | nil => exact holds
  | cons id others ih =>
    have first := holds_refreshRow reg node id distinct holds
    have firstKeys : (reg.refreshRow node state id).methods.keys = state.methods.keys :=
      Store.keys_of_map_eq Method.bare (fun _ => rfl)
        (map_bare_refreshRow reg node id distinct)
    exact ih _ (firstKeys ▸ distinct) first

omit [Scalar R] in
/-- The slots of one class and those of the methods, apart from all others. -/
theorem exists_foreign_slots {classId : NodeId} {node : ClassNode R}
    (distinct : reg.classes.keys.Nodup) (found : reg.classes.get? classId = some node)
    (lent : List Slot) :
    ∃ foreign, (reg.slots ++ lent).Perm
        (node.slots ++ (reg.methods.items.flatMap Method.slots ++ foreign)) ∧
      ∀ (change : ClassNode R → ClassNode R) (methods : Store Method) (pool : Pool R),
        ((change node).slots ++ (methods.items.flatMap Method.slots ++ foreign)).Perm
          ({ reg with
              classes := reg.classes.modify classId change, methods, pool }.slots ++
            lent) := by
  obtain ⟨others, whole, changed, _⟩ := Store.exists_flatMap_rest distinct found ClassNode.slots
  refine ⟨others ++ (reg.standalone.items.flatMap StandaloneNode.slots ++
    reg.edges.items.flatMap Edge.slots ++ lent), ?_, ?_⟩
  · rw [List.perm_iff_count]
    intro slot
    have counted := whole.count_eq slot
    simp only [slots, List.count_append] at counted ⊢
    omega
  · intro change methods pool
    rw [List.perm_iff_count]
    intro slot
    have counted := (changed change).count_eq slot
    simp only [slots, List.count_append] at counted ⊢
    omega

/-- Refreshing a class keeps the balance: its header gets a label once, its rows
exchange theirs, and its outline is replaced in place. -/
theorem Balanced.refreshClass (balanced : reg.Balanced lent) (coherent : reg.Coherent)
    (classId : NodeId) :
    (reg.refreshClass classId).Balanced lent := by
  unfold Registry.refreshClass
  cases found : reg.classes.get? classId with
  | none => exact balanced
  | some node =>
    obtain ⟨foreign, apart, together⟩ := exists_foreign_slots coherent.classKeys found lent
    have before := Pool.Holds.of_perm balanced apart
    rw [ClassNode.slots, List.append_assoc] at before
    have labelled := holds_labelHeader before
    rw [← List.append_assoc] at labelled
    have rows := holds_refreshRows reg node node.methods
      { methods := reg.methods
        pool := (reg.labelHeader node).2
        width := Scalar.max (reg.metrics.textWidth reg.text node.headerText)
          reg.metrics.minWidth
        visibleRows := 0 } coherent.methodKeys labelled.swap
    have refreshed := rows.swap
    rw [List.append_assoc] at refreshed
    refine Pool.Holds.of_perm ?_ (together _ _ _)
    rw [ClassNode.slots, List.append_assoc]
    exact (refreshed.swap.upsertShape _).of_perm List.perm_middle.symm

theorem Balanced.rowsChange (balanced : reg.Balanced lent) (coherent : reg.Coherent)
    {result : Bool × Registry R} (change : reg.RowsChange result) :
    result.2.Balanced lent := by
  rcases change with rfl | ⟨classId, toggles, focus, focusListed, rfl⟩
  · exact balanced
  · have configured : (reg.reconfigure classId toggles focus).Balanced lent :=
      balanced.modifyClass classId fun _ => rfl
    exact configured.refreshClass (coherent.reconfigure toggles focusListed) classId

/-! ## Places and lines -/

omit [Scalar R] in
theorem Balanced.moveTo (balanced : reg.Balanced lent) (id : NodeId) (position : Vec R) :
    (reg.moveTo id position).Balanced lent := by
  unfold Registry.moveTo
  split
  · exact balanced.modifyClass id fun _ => rfl
  · refine balanced.congr rfl ?_
    have same : (reg.standalone.modify id fun node => { node with position }).items.flatMap
        StandaloneNode.slots = reg.standalone.items.flatMap StandaloneNode.slots :=
      Store.flatMap_modify fun _ _ => rfl
    simp only [slots, same]

omit [Scalar R] in
theorem Balanced.applyPositions (balanced : reg.Balanced lent) (positions : Positions R) :
    (reg.applyPositions positions).Balanced lent :=
  List.foldlRecOn (motive := fun (moved : Registry R) => moved.Balanced lent) positions _ balanced
    fun _ stillBalanced place _ => stillBalanced.moveTo place.1 place.2

theorem holds_routeAll (reg : Registry R) (edges : List Edge) {pool : Pool R}
    {rest : List Slot} (holds : pool.Holds (edges.flatMap Edge.slots ++ rest)) :
    (reg.routeAll edges pool).2.Holds
      ((reg.routeAll edges pool).1.flatMap Edge.slots ++ rest) := by
  induction edges generalizing pool rest with
  | nil => exact holds
  | cons edge others ih =>
    rw [List.flatMap_cons, List.append_assoc] at holds
    unfold routeAll
    cases reg.route edge with
    | none =>
      have routed := (ih holds.swap).swap
      rw [← List.append_assoc] at routed
      exact routed
    | some points =>
      have drawn : (pool.upsertShape edge.geometry points).2.Holds
          ([((pool.upsertShape edge.geometry points).1, .shape)] ++
            (others.flatMap Edge.slots ++ rest)) :=
        holds.upsertShape points
      have routed := (ih drawn.swap).swap
      rw [← List.append_assoc] at routed
      exact routed

theorem Balanced.updateEdgeGeometry
    (balanced : reg.Balanced lent) : reg.updateEdgeGeometry.Balanced lent := by
  rw [Balanced, slots, List.append_assoc] at balanced
  have routed := (holds_routeAll reg reg.edges.items balanced.swap).swap
  rw [← List.append_assoc] at routed
  exact routed

/-! ## Removal -/

section
omit [Scalar R]

/-- What leaves the stores of a map leaves its slots. -/
theorem slots_perm_of_parts (other : Registry R)
    (classPart methodPart standalonePart edgePart lent : List Slot)
    (classes : (reg.classes.items.flatMap ClassNode.slots).Perm
      (classPart ++ other.classes.items.flatMap ClassNode.slots))
    (methods : (reg.methods.items.flatMap Method.slots).Perm
      (methodPart ++ other.methods.items.flatMap Method.slots))
    (standalone : (reg.standalone.items.flatMap StandaloneNode.slots).Perm
      (standalonePart ++ other.standalone.items.flatMap StandaloneNode.slots))
    (edges : (reg.edges.items.flatMap Edge.slots).Perm
      (edgePart ++ other.edges.items.flatMap Edge.slots)) :
    (reg.slots ++ lent).Perm
      (classPart ++ (methodPart ++ (standalonePart ++ (edgePart ++ (other.slots ++ lent))))) := by
  rw [List.perm_iff_count]
  intro slot
  have classCount := classes.count_eq slot
  have methodCount := methods.count_eq slot
  have standaloneCount := standalone.count_eq slot
  have edgeCount := edges.count_eq slot
  simp only [slots, List.count_append] at classCount methodCount standaloneCount edgeCount ⊢
  omega

theorem Balanced.removeEdges (balanced : reg.Balanced lent) (doomed : Edge → Bool) :
    (reg.removeEdges doomed).Balanced lent := by
  have edges : (reg.edges.items.flatMap Edge.slots).Perm
      ((reg.edges.items.filter doomed).flatMap Edge.slots ++
        (reg.removeEdges doomed).edges.items.flatMap Edge.slots) := by
    rw [← List.flatMap_append]
    exact (List.filter_append_perm doomed reg.edges.items).symm.flatMap_right _
  have apart := Pool.Holds.of_perm balanced
    (slots_perm_of_parts (reg.removeEdges doomed) [] [] [] _ lent (List.Perm.refl _)
      (List.Perm.refl _) (List.Perm.refl _) edges)
  exact Pool.Holds.releaseSlots apart

section

variable (balanced : reg.Balanced lent) (coherent : reg.Coherent)
include balanced coherent

theorem Balanced.deleteClass {node : ClassNode R} (mem : node ∈ reg.classes.items) :
    (reg.deleteClass node).Balanced lent := by
  obtain ⟨_, whole, _, rfl⟩ := Store.exists_flatMap_rest coherent.classKeys
    (Store.get?_of_mem coherent.classKeys mem) ClassNode.slots
  have rows : reg.methods.items.Perm (node.methods.filterMap reg.methods.get? ++
      (node.methods.foldl Store.erase reg.methods).items) := by
    apply Store.perm_filterMap_append_foldl_erase coherent.methodKeys (coherent.rows node mem)
    intro id listed
    obtain ⟨method, methodMem, methodId, _⟩ := coherent.member node mem id listed
    exact Store.mem_keys_iff.mpr ⟨method, methodMem, methodId⟩
  have methods := rows.flatMap_right Method.slots
  rw [List.flatMap_append] at methods
  let left := { reg with
    classes := reg.classes.erase node.id
    methods := node.methods.foldl Store.erase reg.methods }
  have apart := Pool.Holds.of_perm balanced
    (slots_perm_of_parts left node.slots _ [] [] lent whole methods (List.Perm.refl _)
      (List.Perm.refl _))
  rw [ClassNode.slots, List.append_assoc] at apart
  have released : { left with pool := _ }.Balanced lent :=
    apart.releaseSlot.releaseSlot.releaseSlots
  exact released.removeEdges _

theorem Balanced.withoutMethod {method : Method} (mem : method ∈ reg.methods.items) :
    (reg.withoutMethod method).Balanced lent := by
  obtain ⟨_, whole, _, rfl⟩ := Store.exists_flatMap_rest coherent.methodKeys
    (Store.get?_of_mem coherent.methodKeys mem) Method.slots
  let left := { reg with methods := reg.methods.erase method.id }
  have apart := Pool.Holds.of_perm balanced
    (slots_perm_of_parts left [] method.slots [] [] lent (List.Perm.refl _) whole (List.Perm.refl _)
      (List.Perm.refl _))
  have released : { left with pool := left.pool.releaseSlot method.label }.Balanced lent :=
    apart.releaseSlot
  apply Balanced.removeEdges
  exact released.modifyClass method.classId fun _ => rfl

theorem Balanced.deleteStandalone {node : StandaloneNode R} (mem : node ∈ reg.standalone.items) :
    (reg.deleteStandalone node).Balanced lent := by
  obtain ⟨_, whole, _, rfl⟩ := Store.exists_flatMap_rest coherent.standaloneKeys
    (Store.get?_of_mem coherent.standaloneKeys mem) StandaloneNode.slots
  let left := { reg with standalone := reg.standalone.erase node.id }
  have apart := Pool.Holds.of_perm balanced
    (slots_perm_of_parts left [] [] node.slots [] lent (List.Perm.refl _) (List.Perm.refl _) whole
      (List.Perm.refl _))
  rw [StandaloneNode.slots, List.append_assoc] at apart
  have released : { left with
      pool := (left.pool.releaseSlot node.label).releaseSlot node.outline }.Balanced lent :=
    apart.releaseSlot.releaseSlot
  exact released.removeEdges _

end

end

theorem Balanced.deleteNode (balanced : reg.Balanced lent) (coherent : reg.Coherent) (id : NodeId) :
    (reg.deleteNode id).2.Balanced lent := by
  rcases reg.deleteNode_cases id with ⟨node, found, deleted⟩ | ⟨method, _, found, deleted⟩ |
      ⟨node, _, _, found, deleted⟩ | ⟨_, same⟩
  · rw [deleted]
    exact balanced.deleteClass coherent (Store.mem_of_get? found)
  · rw [deleted, deleteMethod_eq]
    have mem := Store.mem_of_get? found
    exact (balanced.withoutMethod coherent mem).refreshClass (coherent.withoutMethod mem) _
  · rw [deleted]
    exact balanced.deleteStandalone coherent (Store.mem_of_get? found)
  · rw [same]
    exact balanced

theorem Balanced.focusOnClass (balanced : reg.Balanced lent) (coherent : reg.Coherent)
    (classId : NodeId) :
    (reg.focusOnClass classId).2.Balanced lent := by
  apply (coherent.focusOnClass_induction classId
    (motive := fun (left : Registry R) => left.Balanced lent) balanced _ _).2
  · exact balanced.removeEdges fun _ => true
  · exact fun left coherentLeft held id _ => held.deleteNode coherentLeft id

/-! ## Taking in data -/

section

variable (balanced : state.registry.Balanced lent)
include balanced

theorem Balanced.technicalNode (node : Node) :
    (state.technicalNode node).registry.Balanced lent := by
  rcases Ingest.technicalNode_cases state node with same | ⟨new, _, added⟩ | ⟨_, _, added⟩
  · rw [same]
    exact balanced
  · rw [added]
    apply Pool.Holds.of_perm balanced
    apply List.Perm.symm
    exact slots_perm_of_parts state.registry [] [] [] [] lent
      (Store.perm_flatMap_insert (Ingest.not_mem_keys_of_new new).1 ClassNode.slots)
      (List.Perm.refl _) (List.Perm.refl _) (List.Perm.refl _)
  · rw [added]
    exact balanced

omit [Scalar R] in
theorem Balanced.claimMethod (ready : state.Ready) (link : Relationship) :
    (state.claimMethod link).registry.Balanced lent := by
  rcases Ingest.claimMethod_cases state link with same | ⟨node, _, _, found, claimed⟩
  · rw [same]
    exact balanced
  · rw [claimed]
    have new : node.id ∉ state.registry.methods.keys :=
      ready.pending node (Store.mem_of_get? found)
    have added : { state.registry with
        methods :=
          state.registry.methods.insert (.ofNode node link.source) }.Balanced lent := by
      apply Pool.Holds.of_perm balanced
      apply List.Perm.symm
      exact slots_perm_of_parts state.registry [] [] [] [] lent (List.Perm.refl _)
        (Store.perm_flatMap_insert new Method.slots) (List.Perm.refl _) (List.Perm.refl _)
    exact added.modifyClass link.source fun _ => rfl

theorem Balanced.architectureNode (node : Node) :
    (state.architectureNode node).registry.Balanced lent := by
  rcases Ingest.architectureNode_cases state node with
    same | ⟨item, bitmap, points, new, _, itemId, label, outline, added⟩
  · rw [same]
    exact balanced
  · rw [added]
    have itemNew : item.id ∉ state.registry.standalone.keys :=
      itemId ▸ (Ingest.not_mem_keys_of_new new).2.2
    have allocated := (Pool.Holds.allocateLabel balanced bitmap).allocateShape points
    have labelled : ((state.registry.pool.allocateLabel bitmap).2.allocateShape points).2.Holds
        (item.slots ++ (state.registry.slots ++ lent)) := by
      rw [StandaloneNode.slots, label, outline]
      exact allocated.of_perm (List.Perm.swap _ _ _)
    apply labelled.of_perm
    apply List.Perm.symm
    exact slots_perm_of_parts state.registry [] [] item.slots [] lent (List.Perm.refl _)
      (List.Perm.refl _) (Store.perm_flatMap_insert itemNew StandaloneNode.slots) (List.Perm.refl _)

omit [Scalar R] in
theorem Balanced.edge (link : Relationship) : (state.edge link).registry.Balanced lent := by
  rcases Ingest.edge_cases state link with ⟨_, same⟩ | ⟨_, new, _, _, added⟩
  · rw [same]
    exact balanced
  · rw [added]
    apply Pool.Holds.of_perm balanced
    apply List.Perm.symm
    exact slots_perm_of_parts state.registry [] [] [] [] lent (List.Perm.refl _) (List.Perm.refl _)
      (List.Perm.refl _) (Store.perm_flatMap_insert new Edge.slots)

end

theorem Balanced.refreshClasses (balanced : reg.Balanced lent) (coherent : reg.Coherent)
    (ids : List NodeId) :
    (ids.foldl Registry.refreshClass reg).Balanced lent := by
  have kept := List.foldlRecOn
    (motive := fun (refreshed : Registry R) => refreshed.Coherent ∧ refreshed.Balanced lent) ids
    Registry.refreshClass ⟨coherent, balanced⟩
    fun _ held id _ => ⟨held.1.refreshClass id, held.2.refreshClass held.1 id⟩
  exact kept.2

theorem Balanced.addData (balanced : reg.Balanced lent) (coherent : reg.Coherent)
    (nodes : List Node) (links : List Relationship) :
    (reg.addData nodes links).2.Balanced lent := by
  apply coherent.withData_induction
    (motive := fun (state : Ingest R) => state.registry.Balanced lent)
  · exact balanced
  · exact fun state _ held node _ => held.technicalNode node
  · exact fun state ready held link => held.claimMethod ready link
  · exact fun state ready held => held.refreshClasses ready.coherent _
  · exact fun state _ held node => held.architectureNode node
  · exact fun state held link => held.edge link

theorem balanced_setData (reg : Registry R) (nodes : List Node)
    (links : List Relationship) : (reg.setData nodes links).2.Balanced [] :=
  (balanced_clear reg).addData (coherent_clear reg) nodes links

end Registry

end CodeAtlas
