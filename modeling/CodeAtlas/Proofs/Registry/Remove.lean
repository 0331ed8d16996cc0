import CodeAtlas.Proofs.Registry.Coherence
import CodeAtlas.Registry.Remove

/-!
# Taking things off the map

Whatever leaves a coherent map takes along its rows and every edge that would
lose an end, so that a coherent map is left.
-/

namespace CodeAtlas

variable {R : Type} [Scalar R] {reg : Registry R}

namespace Registry

/-! ## Edges -/

section
omit [Scalar R]

theorem mem_edges_removeEdges {doomed : Edge → Bool} {edge : Edge} :
    edge ∈ (reg.removeEdges doomed).edges.items ↔
      edge ∈ reg.edges.items ∧ doomed edge = false := by
  simp [removeEdges]

theorem keys_edges_removeEdges_sublist (reg : Registry R) (doomed : Edge → Bool) :
    (reg.removeEdges doomed).edges.keys.Sublist reg.edges.keys :=
  List.filter_sublist.map _

theorem mem_edges_removeEdgesAt {ids : List NodeId} {edge : Edge} :
    edge ∈ (reg.removeEdgesAt ids).edges.items ↔
      edge ∈ reg.edges.items ∧ edge.source ∉ ids ∧ edge.target ∉ ids := by
  simp [removeEdgesAt, mem_edges_removeEdges]

theorem Coherent.removeEdges (coherent : reg.Coherent)
    (doomed : Edge → Bool) : (reg.removeEdges doomed).Coherent :=
  ⟨coherent.classKeys, coherent.methodKeys, coherent.standaloneKeys,
    coherent.edgeKeys.sublist (keys_edges_removeEdges_sublist reg doomed), coherent.owner,
    coherent.rows, coherent.member, coherent.focus,
    fun edge mem => coherent.ends edge (mem_edges_removeEdges.mp mem).1,
    fun edge mem => coherent.drawn edge (mem_edges_removeEdges.mp mem).1, coherent.technical,
    coherent.architecture⟩

end

/-! ## Classes -/

section
omit [Scalar R]

/-- The rows of a class are the ids of its methods. -/
theorem Coherent.map_id_rows (coherent : reg.Coherent) {node : ClassNode R}
    (mem : node ∈ reg.classes.items) :
    (node.methods.filterMap reg.methods.get?).map Method.id = node.methods := by
  apply Store.map_key_filterMap_get?
  intro id listed
  obtain ⟨method, methodMem, methodId, _⟩ := coherent.member node mem id listed
  exact Store.mem_keys_iff.mpr ⟨method, methodMem, methodId⟩

/-- The methods of a class are those that name it as their owner. -/
theorem Coherent.mem_methodsOf_iff (coherent : reg.Coherent) {classId : NodeId} {method : Method} :
    method ∈ reg.methodsOf classId ↔
      method ∈ reg.methods.items ∧ method.classId = classId := by
  constructor
  · intro listed
    unfold methodsOf at listed
    cases found : reg.classes.get? classId with
    | none => simp [found] at listed
    | some node =>
      rw [found] at listed
      obtain ⟨id, idListed, methodFound⟩ := List.mem_filterMap.mp listed
      have methodMem := Store.mem_of_get? methodFound
      obtain ⟨owned, ownedMem, ownedId, ownerId⟩ :=
        coherent.member node (Store.mem_of_get? found) id idListed
      have same : owned = method :=
        Store.eq_of_key_eq coherent.methodKeys ownedMem methodMem
          (ownedId.trans (Store.key_of_get? methodFound).symm)
      have nodeId : node.id = classId := Store.key_of_get? found
      subst same
      exact ⟨methodMem, ownerId.trans nodeId⟩
  · rintro ⟨methodMem, rfl⟩
    obtain ⟨owner, ownerMem, ownerId, listed⟩ := coherent.owner method methodMem
    have ownerFound : reg.classes.get? method.classId = some owner :=
      (Store.get?_eq_some_iff coherent.classKeys).mpr ⟨ownerMem, ownerId⟩
    unfold methodsOf
    rw [ownerFound]
    have methodFound := Store.get?_of_mem coherent.methodKeys methodMem
    exact List.mem_filterMap.mpr ⟨method.id, listed, methodFound⟩

theorem Coherent.mem_edges_deleteClass (coherent : reg.Coherent) {node : ClassNode R}
    (mem : node ∈ reg.classes.items) {edge : Edge} :
    edge ∈ (reg.deleteClass node).edges.items ↔
      edge ∈ reg.edges.items ∧ edge.source ∉ node.id :: node.methods ∧
        edge.target ∉ node.id :: node.methods := by
  have ids := coherent.map_id_rows mem
  unfold deleteClass
  simp only [mem_edges_removeEdgesAt, ids]

/-- A method is a row of at most one class. -/
theorem Coherent.class_eq_of_listed (coherent : reg.Coherent) {node other : ClassNode R}
    (mem : node ∈ reg.classes.items) (otherMem : other ∈ reg.classes.items) {id : NodeId}
    (listed : id ∈ node.methods) (otherListed : id ∈ other.methods) : node = other := by
  obtain ⟨method, methodMem, methodId, ownerId⟩ := coherent.member node mem id listed
  obtain ⟨same, sameMem, sameId, otherId⟩ := coherent.member other otherMem id otherListed
  have methodEq : method = same :=
    Store.eq_of_key_eq coherent.methodKeys methodMem sameMem (methodId.trans sameId.symm)
  subst same
  exact Store.eq_of_key_eq coherent.classKeys mem otherMem (ownerId.symm.trans otherId)

/-- Nodes that are not removed stay on the map. -/
theorem containsNode_of_kept {reg left : Registry R} {doomed : List NodeId}
    (classes : ∀ id ∈ reg.classes.keys, id ∉ doomed → id ∈ left.classes.keys)
    (methods : ∀ id ∈ reg.methods.keys, id ∉ doomed → id ∈ left.methods.keys)
    (standalone : ∀ id ∈ reg.standalone.keys, id ∉ doomed → id ∈ left.standalone.keys)
    {id : NodeId} (known : reg.containsNode id = true) (stays : id ∉ doomed) :
    left.containsNode id = true := by
  rw [containsNode_iff] at known ⊢
  rcases known with isClass | isMethod | isStandalone
  · exact Or.inl (classes id isClass stays)
  · exact Or.inr (Or.inl (methods id isMethod stays))
  · exact Or.inr (Or.inr (standalone id isStandalone stays))

theorem Coherent.deleteClass (coherent : reg.Coherent) {node : ClassNode R}
    (mem : node ∈ reg.classes.items) :
    (reg.deleteClass node).Coherent := by
  have keptClass : ∀ {other : ClassNode R}, other ∈ (reg.deleteClass node).classes.items ↔
      other ∈ reg.classes.items ∧ other.id ≠ node.id :=
    Store.mem_erase
  have keptMethod : ∀ {method : Method}, method ∈ (reg.deleteClass node).methods.items ↔
      method ∈ reg.methods.items ∧ method.id ∉ node.methods :=
    Store.mem_foldl_erase
  have keptEnd : ∀ id, reg.containsNode id = true → id ∉ node.id :: node.methods →
      (reg.deleteClass node).containsNode id = true := by
    intro id
    apply containsNode_of_kept
    · exact fun id isClass stays =>
        Store.mem_keys_erase.mpr ⟨isClass, List.ne_of_not_mem_cons stays⟩
    · exact fun id isMethod stays =>
        Store.mem_keys_foldl_erase.mpr ⟨isMethod, List.not_mem_of_not_mem_cons stays⟩
    · exact fun id isStandalone _ => isStandalone
  refine ⟨coherent.classKeys.sublist Store.keys_erase_sublist,
    coherent.methodKeys.sublist Store.keys_foldl_erase_sublist, coherent.standaloneKeys,
    coherent.edgeKeys.sublist (keys_edges_removeEdges_sublist _ _), ?_, ?_, ?_, ?_, ?_, ?_,
    coherent.technical, ?_⟩
  · intro method methodMem
    obtain ⟨old, unlisted⟩ := keptMethod.mp methodMem
    obtain ⟨owner, ownerMem, ownerId, listed⟩ := coherent.owner method old
    refine ⟨owner, keptClass.mpr ⟨ownerMem, ?_⟩, ownerId, listed⟩
    intro same
    have ownerEq : owner = node := Store.eq_of_key_eq coherent.classKeys ownerMem mem same
    exact unlisted (ownerEq ▸ listed)
  · exact fun other otherMem => coherent.rows other (keptClass.mp otherMem).1
  · intro other otherMem id listed
    obtain ⟨old, different⟩ := keptClass.mp otherMem
    obtain ⟨method, methodMem, methodId, ownerId⟩ := coherent.member other old id listed
    refine ⟨method, keptMethod.mpr ⟨methodMem, ?_⟩, methodId, ownerId⟩
    intro doomed
    have sameClass := coherent.class_eq_of_listed old mem listed (methodId ▸ doomed)
    exact different (congrArg ClassNode.id sameClass)
  · exact fun other otherMem => coherent.focus other (keptClass.mp otherMem).1
  · intro edge edgeMem
    obtain ⟨old, source, target⟩ := (coherent.mem_edges_deleteClass mem).mp edgeMem
    obtain ⟨sourceKnown, targetKnown⟩ := coherent.ends edge old
    exact ⟨keptEnd _ sourceKnown source, keptEnd _ targetKnown target⟩
  · exact fun edge edgeMem =>
      coherent.drawn edge ((coherent.mem_edges_deleteClass mem).mp edgeMem).1
  · intro perspective
    have noClasses := (coherent.architecture perspective).1
    rw [noClasses] at mem
    cases mem

end

/-! ## Methods -/

/-- The map without a method and its edges, before its class is refreshed. -/
def withoutMethod (reg : Registry R) (method : Method) : Registry R :=
  { reg with
    methods := reg.methods.erase method.id
    pool := reg.pool.releaseSlot method.label
    classes := reg.classes.modify method.classId fun owner =>
      { owner with
        methods := owner.methods.filter (· ≠ method.id)
        focusedMethod := owner.focusedMethod.filter (· ≠ method.id) } }.removeEdgesAt [method.id]

theorem deleteMethod_eq (reg : Registry R) (method : Method) :
    reg.deleteMethod method = (reg.withoutMethod method).refreshClass method.classId :=
  rfl

section
omit [Scalar R]

theorem keys_classes_withoutMethod (reg : Registry R) (method : Method) :
    (reg.withoutMethod method).classes.keys = reg.classes.keys :=
  Store.keys_modify fun _ same => same

/-- Every class that is left has its old rows but the method, and its old focus
but the method. -/
theorem Coherent.class_of_withoutMethod (coherent : reg.Coherent) {method : Method}
    (mem : method ∈ reg.methods.items) {node : ClassNode R}
    (nodeMem : node ∈ (reg.withoutMethod method).classes.items) :
    ∃ old ∈ reg.classes.items, node.id = old.id ∧
      (∀ id, id ∈ node.methods ↔ id ∈ old.methods ∧ id ≠ method.id) ∧
      node.methods.Nodup ∧ (∀ id ∈ node.focusedMethod, id ∈ node.methods) := by
  rcases Store.mem_modify.mp nodeMem with ⟨old, oldMem, same, rfl⟩ | ⟨oldMem, different⟩
  · refine ⟨old, oldMem, rfl, by simp, (coherent.rows old oldMem).filter _, ?_⟩
    intro id focused
    obtain ⟨oldFocus, kept⟩ := Option.mem_filter_iff.mp focused
    exact List.mem_filter.mpr ⟨coherent.focus old oldMem id oldFocus, kept⟩
  · refine ⟨node, oldMem, rfl, ?_, coherent.rows node oldMem, coherent.focus node oldMem⟩
    intro id
    constructor
    · intro listed
      refine ⟨listed, ?_⟩
      rintro rfl
      obtain ⟨row, rowMem, rowId, ownerId⟩ := coherent.member node oldMem _ listed
      have rowEq : row = method := Store.eq_of_key_eq coherent.methodKeys rowMem mem rowId
      exact different (ownerId.symm.trans (congrArg Method.classId rowEq))
    · exact And.left

theorem Coherent.withoutMethod (coherent : reg.Coherent) {method : Method}
    (mem : method ∈ reg.methods.items) :
    (reg.withoutMethod method).Coherent := by
  have keptMethod : ∀ {other : Method}, other ∈ (reg.withoutMethod method).methods.items ↔
      other ∈ reg.methods.items ∧ other.id ≠ method.id :=
    Store.mem_erase
  have keptEdge : ∀ {edge : Edge}, edge ∈ (reg.withoutMethod method).edges.items ↔
      edge ∈ reg.edges.items ∧ edge.source ∉ [method.id] ∧ edge.target ∉ [method.id] :=
    mem_edges_removeEdgesAt
  have keptEnd : ∀ id, reg.containsNode id = true → id ∉ [method.id] →
      (reg.withoutMethod method).containsNode id = true := by
    intro id
    apply containsNode_of_kept
    · exact fun id isClass _ => keys_classes_withoutMethod reg method ▸ isClass
    · exact fun id isMethod stays =>
        Store.mem_keys_erase.mpr ⟨isMethod, List.ne_of_not_mem_cons stays⟩
    · exact fun id isStandalone _ => isStandalone
  refine ⟨keys_classes_withoutMethod reg method ▸ coherent.classKeys,
    coherent.methodKeys.sublist Store.keys_erase_sublist, coherent.standaloneKeys,
    coherent.edgeKeys.sublist (keys_edges_removeEdges_sublist _ _), ?_, ?_, ?_, ?_, ?_, ?_,
    coherent.technical, ?_⟩
  · intro other otherMem
    obtain ⟨old, different⟩ := keptMethod.mp otherMem
    obtain ⟨owner, ownerMem, ownerId, listed⟩ := coherent.owner other old
    have stored : owner.id ∈ (reg.withoutMethod method).classes.keys :=
      keys_classes_withoutMethod reg method ▸ Store.key_mem_keys ownerMem
    obtain ⟨node, nodeMem, nodeId⟩ := Store.mem_keys_iff.mp stored
    obtain ⟨source, sourceMem, sourceId, rowsEq, _⟩ := coherent.class_of_withoutMethod mem nodeMem
    have sourceEq : source = owner :=
      Store.eq_of_key_eq coherent.classKeys sourceMem ownerMem (sourceId.symm.trans nodeId)
    exact ⟨node, nodeMem, nodeId.trans ownerId,
      (rowsEq other.id).mpr ⟨sourceEq ▸ listed, different⟩⟩
  · intro node nodeMem
    obtain ⟨_, _, _, _, rows, _⟩ := coherent.class_of_withoutMethod mem nodeMem
    exact rows
  · intro node nodeMem id listed
    obtain ⟨old, oldMem, idEq, rowsEq, _⟩ := coherent.class_of_withoutMethod mem nodeMem
    obtain ⟨oldListed, different⟩ := (rowsEq id).mp listed
    obtain ⟨other, otherMem, otherId, ownerId⟩ := coherent.member old oldMem id oldListed
    exact ⟨other, keptMethod.mpr ⟨otherMem, otherId ▸ different⟩, otherId, ownerId.trans idEq.symm⟩
  · intro node nodeMem
    obtain ⟨_, _, _, _, _, focus⟩ := coherent.class_of_withoutMethod mem nodeMem
    exact focus
  · intro edge edgeMem
    obtain ⟨old, source, target⟩ := keptEdge.mp edgeMem
    obtain ⟨sourceKnown, targetKnown⟩ := coherent.ends edge old
    exact ⟨keptEnd _ sourceKnown source, keptEnd _ targetKnown target⟩
  · exact fun edge edgeMem => coherent.drawn edge (keptEdge.mp edgeMem).1
  · intro perspective
    have noMethods := (coherent.architecture perspective).2
    rw [noMethods] at mem
    cases mem

end

/-! ## Standalone nodes -/

omit [Scalar R] in
theorem Coherent.deleteStandalone (coherent : reg.Coherent)
    (node : StandaloneNode R) : (reg.deleteStandalone node).Coherent := by
  have keptEdge : ∀ {edge : Edge}, edge ∈ (reg.deleteStandalone node).edges.items ↔
      edge ∈ reg.edges.items ∧ edge.source ∉ [node.id] ∧ edge.target ∉ [node.id] :=
    mem_edges_removeEdgesAt
  have keptEnd : ∀ id, reg.containsNode id = true → id ∉ [node.id] →
      (reg.deleteStandalone node).containsNode id = true := by
    intro id
    apply containsNode_of_kept
    · exact fun id isClass _ => isClass
    · exact fun id isMethod _ => isMethod
    · exact fun id isStandalone stays =>
        Store.mem_keys_erase.mpr ⟨isStandalone, List.ne_of_not_mem_cons stays⟩
  refine ⟨coherent.classKeys, coherent.methodKeys,
    coherent.standaloneKeys.sublist Store.keys_erase_sublist,
    coherent.edgeKeys.sublist (keys_edges_removeEdges_sublist _ _), coherent.owner, coherent.rows,
    coherent.member, coherent.focus, ?_, ?_, ?_, coherent.architecture⟩
  · intro edge edgeMem
    obtain ⟨old, source, target⟩ := keptEdge.mp edgeMem
    obtain ⟨sourceKnown, targetKnown⟩ := coherent.ends edge old
    exact ⟨keptEnd _ sourceKnown source, keptEnd _ targetKnown target⟩
  · exact fun edge edgeMem => coherent.drawn edge (keptEdge.mp edgeMem).1
  · intro perspective
    have noStandalone := coherent.technical perspective
    simp [Registry.deleteStandalone, removeEdgesAt, Registry.removeEdges, Store.erase, noStandalone]

/-! ## Whatever an id names -/

/-- What an id names decides what its removal does. -/
theorem deleteNode_cases (reg : Registry R) (id : NodeId) :
    (∃ node, reg.classes.get? id = some node ∧ reg.deleteNode id = (true, reg.deleteClass node)) ∨
    (∃ method, reg.classes.get? id = none ∧ reg.methods.get? id = some method ∧
      reg.deleteNode id = (true, reg.deleteMethod method)) ∨
    (∃ node, reg.classes.get? id = none ∧ reg.methods.get? id = none ∧
      reg.standalone.get? id = some node ∧
      reg.deleteNode id = (true, reg.deleteStandalone node)) ∨
    (reg.containsNode id = false ∧ reg.deleteNode id = (false, reg)) := by
  unfold deleteNode
  cases isClass : reg.classes.get? id with
  | some node => exact Or.inl ⟨node, rfl, rfl⟩
  | none =>
    cases isMethod : reg.methods.get? id with
    | some method => exact Or.inr (Or.inl ⟨method, rfl, rfl, rfl⟩)
    | none =>
      cases isStandalone : reg.standalone.get? id with
      | some node => exact Or.inr (Or.inr (Or.inl ⟨node, rfl, rfl, rfl, rfl⟩))
      | none =>
        refine Or.inr (Or.inr (Or.inr ⟨?_, rfl⟩))
        rw [Store.get?_eq_none_iff] at isClass isMethod isStandalone
        rw [← Bool.not_eq_true, containsNode_iff]
        rintro (known | known | known)
        · exact isClass known
        · exact isMethod known
        · exact isStandalone known

/-- A removal that finds nothing changes nothing. -/
theorem deleteNode_eq_of_false {reg left : Registry R} {id : NodeId}
    (result : reg.deleteNode id = (false, left)) : left = reg := by
  rcases reg.deleteNode_cases id with ⟨_, _, deleted⟩ | ⟨_, _, _, deleted⟩ |
      ⟨_, _, _, _, deleted⟩ | ⟨_, same⟩
  · rw [deleted] at result
    cases result
  · rw [deleted] at result
    cases result
  · rw [deleted] at result
    cases result
  · rw [same] at result
    cases result
    rfl

theorem Coherent.deleteNode (coherent : reg.Coherent) (id : NodeId) :
    (reg.deleteNode id).2.Coherent := by
  rcases reg.deleteNode_cases id with ⟨node, found, deleted⟩ | ⟨method, _, found, deleted⟩ |
      ⟨node, _, _, _, deleted⟩ | ⟨_, same⟩
  · rw [deleted]
    exact coherent.deleteClass (Store.mem_of_get? found)
  · rw [deleted, deleteMethod_eq]
    exact (coherent.withoutMethod (Store.mem_of_get? found)).refreshClass method.classId
  · rw [deleted]
    exact coherent.deleteStandalone node
  · rw [same]
    exact coherent

omit [Scalar R] in
/-- A map with a class has no standalone nodes. -/
theorem Coherent.standalone_eq_nil (coherent : reg.Coherent) {classId : NodeId}
    (known : classId ∈ reg.classes.keys) :
    reg.standalone.items = [] := by
  cases perspective : reg.perspective with
  | technical => exact coherent.technical perspective
  | architecture =>
    rw [Store.keys, (coherent.architecture perspective).1] at known
    cases known

/-- What survives losing the edges and nodes other than a class holds after that
class is focused on. -/
theorem Coherent.focusOnClass_induction (coherent : reg.Coherent)
    (classId : NodeId) {motive : Registry R → Prop} (start : motive reg)
    (edges : motive (reg.removeEdges fun _ => true))
    (delete : ∀ left : Registry R, left.Coherent → motive left →
      ∀ id, id ≠ classId → motive (left.deleteNode id).2) :
    (reg.focusOnClass classId).2.Coherent ∧ motive (reg.focusOnClass classId).2 := by
  unfold Registry.focusOnClass
  split
  · next known =>
      apply List.foldlRecOn (motive := fun (left : Registry R) => left.Coherent ∧ motive left)
      · exact ⟨coherent.removeEdges fun _ => true, edges⟩
      · intro left held id mem
        have different : id ≠ classId := by
          have noStandalone : (reg.removeEdges fun _ => true).standalone.keys = [] :=
            congrArg (List.map Keyed.key) (coherent.standalone_eq_nil (Store.contains_iff.mp known))
          rw [noStandalone, List.append_nil] at mem
          simpa using (List.mem_filter.mp mem).2
        exact ⟨held.1.deleteNode id, delete left held.1 held.2 id different⟩
  · exact ⟨coherent, start⟩

theorem Coherent.focusOnClass (coherent : reg.Coherent)
    (classId : NodeId) : (reg.focusOnClass classId).2.Coherent :=
  (coherent.focusOnClass_induction classId (motive := fun _ => True) trivial trivial
    fun _ _ _ _ _ => trivial).1

end Registry

end CodeAtlas
