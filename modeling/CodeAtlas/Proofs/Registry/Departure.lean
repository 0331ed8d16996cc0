import CodeAtlas.Proofs.Registry.Batch
import CodeAtlas.Proofs.Registry.Kinds
import CodeAtlas.Proofs.Registry.Pictures
import CodeAtlas.Proofs.Registry.Shown

/-!
# Who leaves the map

Toggles and focus take no node off the map.  Deleting a node takes no other node
off, unless that is a method of a deleted class.  When a class is set apart,
exactly the class and its methods stay.
-/

namespace CodeAtlas

variable {R : Type} [Scalar R] {reg : Registry R}

namespace Registry

theorem containsNode_of_bare_eq {reg other : Registry R} (same : other.bare = reg.bare)
    (id : NodeId) : other.containsNode id = reg.containsNode id := by
  rw [← containsNode_bare, same, containsNode_bare]

theorem RowsChange.containsNode {result : Bool × Registry R} (change : reg.RowsChange result)
    (coherent : reg.Coherent) (id : NodeId) :
    result.2.containsNode id = reg.containsNode id := by
  obtain ⟨classes, methods, standalone⟩ := change.keeps coherent
  rw [Bool.eq_iff_iff, containsNode_iff, containsNode_iff, classes,
    ← keys_bare_methods result.2, methods, keys_bare_methods,
    ← keys_bare_standalone result.2, standalone, keys_bare_standalone]

/-! ## Deleting classes -/

/-- A map that some classes have left with their methods; its pool has let go of
resources and has drawn none anew. -/
structure Sheds (reg : Registry R) (ids : List NodeId) (left : Registry R) : Prop where
  frame : (left.perspective, left.setup) = (reg.perspective, reg.setup)
  classes : left.classes.items = reg.classes.items.filter fun node => !ids.contains node.id
  methods : left.methods.items =
    reg.methods.items.filter fun row => !ids.contains row.classId
  standalone : left.standalone = reg.standalone
  edges : left.edges.items ⊆ reg.edges.items
  pool : reg.pool.Evolves left.pool []

section
omit [Scalar R]

theorem sheds_removeEdges (reg : Registry R) (doomed : Edge → Bool) :
    reg.Sheds [] (reg.removeEdges doomed) := by
  refine ⟨rfl, ?_, ?_, rfl, fun edge mem => (mem_edges_removeEdges.mp mem).1,
    reg.evolves_removeEdges doomed⟩
  · simp [removeEdges]
  · simp [removeEdges]

theorem Sheds.trans {reg middle left : Registry R} {ids more : List NodeId}
    (first : reg.Sheds ids middle) (second : middle.Sheds more left) :
    reg.Sheds (ids ++ more) left := by
  constructor
  · exact second.frame.trans first.frame
  · rw [second.classes, first.classes, List.filter_filter]
    apply List.filter_congr
    intro node _
    rw [List.contains_append, Bool.not_or, Bool.and_comm]
  · rw [second.methods, first.methods, List.filter_filter]
    apply List.filter_congr
    intro row _
    rw [List.contains_append, Bool.not_or, Bool.and_comm]
  · exact second.standalone.trans first.standalone
  · exact fun edge mem => first.edges (second.edges mem)
  · exact first.pool.trans second.pool

theorem Coherent.listed_iff (coherent : reg.Coherent) {node : ClassNode R}
    (mem : node ∈ reg.classes.items) {row : Method}
    (rowMem : row ∈ reg.methods.items) : row.id ∈ node.methods ↔ row.classId = node.id := by
  constructor
  · intro listed
    obtain ⟨member, memberMem, memberId, ownerId⟩ := coherent.member node mem _ listed
    rw [← ownerId, Store.eq_of_key_eq coherent.methodKeys rowMem memberMem memberId.symm]
  · exact fun ownerId => coherent.listed_of_owner rowMem mem ownerId.symm

theorem Coherent.sheds_deleteClass (coherent : reg.Coherent) {node : ClassNode R}
    (mem : node ∈ reg.classes.items) :
    reg.Sheds [node.id] (reg.deleteClass node) := by
  refine ⟨rfl, ?_, ?_, rfl, fun edge kept => (mem_edges_removeEdges.mp kept).1,
    reg.evolves_deleteClass node⟩
  · exact Store.items_foldl_erase [node.id]
  · refine (Store.items_foldl_erase node.methods).trans (List.filter_congr ?_)
    intro row rowMem
    have listed := coherent.listed_iff mem rowMem
    have isKey : Keyed.key row = row.id := rfl
    simp [isKey, listed]

end

/-- Classes that are deleted one after the other take along their own methods and
nothing else, whatever the ids of these are. -/
theorem Coherent.sheds_classes (coherent : reg.Coherent) {ids : List NodeId}
    (distinct : ids.Nodup) (known : ∀ id ∈ ids, id ∈ reg.classes.keys) :
    reg.Sheds ids
      (ids.foldl (fun (left : Registry R) id => (left.deleteNode id).2) reg) := by
  induction ids generalizing reg with
  | nil => exact ⟨rfl, by simp, by simp, rfl, fun _ mem => mem, .refl _⟩
  | cons id rest ih =>
    obtain ⟨absent, distinctRest⟩ := List.nodup_cons.mp distinct
    obtain ⟨node, found⟩ := Store.exists_get? (known id List.mem_cons_self)
    have mem := Store.mem_of_get? found
    obtain rfl : node.id = id := Store.key_of_get? found
    -- A class is looked for first, so the id of a method among the ids does no harm.
    have deleted : (reg.deleteNode node.id).2 = reg.deleteClass node := by
      rw [Registry.deleteNode, found]
    have stillKnown : ∀ other ∈ rest, other ∈ (reg.deleteClass node).classes.keys := by
      intro other otherMem
      refine Store.mem_keys_erase.mpr ⟨known other (List.mem_cons_of_mem _ otherMem), ?_⟩
      rintro rfl
      exact absent otherMem
    rw [List.foldl_cons, deleted]
    exact (coherent.sheds_deleteClass mem).trans
      (ih (coherent.deleteClass mem) distinctRest stillKnown)

/-! ## Setting a class apart -/

/-- All other classes go with their methods, and all edges go. -/
theorem Coherent.sheds_focusOnClass (coherent : reg.Coherent) {classId : NodeId}
    (known : classId ∈ reg.classes.keys) :
    reg.Sheds (reg.classes.keys.filter (· ≠ classId))
        (reg.focusOnClass classId).2 ∧
      (reg.focusOnClass classId).2.edges.items = [] := by
  let bare := reg.removeEdges fun _ => true
  let others := reg.classes.keys.filter (· ≠ classId)
  have noStandalone : reg.standalone.keys = [] := by
    rw [Store.keys, coherent.standalone_eq_nil known]
    rfl
  have focused : (reg.focusOnClass classId).2 =
      others.foldl (fun (left : Registry R) id => (left.deleteNode id).2) bare := by
    rw [Registry.focusOnClass, if_pos (Store.contains_iff.mpr known)]
    change (others ++ reg.standalone.keys).foldl _ bare = _
    rw [noStandalone, List.append_nil]
  have noEdges : bare.edges.items = [] := by simp [bare, Registry.removeEdges]
  have sheds : bare.Sheds others _ := (coherent.removeEdges fun _ => true).sheds_classes
    (coherent.classKeys.filter _) fun other mem => (List.mem_filter.mp mem).1
  rw [focused]
  refine ⟨(reg.sheds_removeEdges _).trans sheds, ?_⟩
  have none := sheds.edges
  rwa [noEdges, List.subset_nil] at none

/-- Exactly the class stays. -/
theorem Coherent.classes_focusOnClass (coherent : reg.Coherent) {node : ClassNode R}
    (mem : node ∈ reg.classes.items) :
    (reg.focusOnClass node.id).2.classes.items = [node] := by
  have known : node.id ∈ reg.classes.keys := Store.key_mem_keys mem
  have found := Store.get?_of_mem coherent.classKeys mem
  obtain ⟨before, after, split, different⟩ := Store.exists_split coherent.classKeys found
  have goes : ∀ other ∈ before ++ after,
      (!(reg.classes.keys.filter (· ≠ node.id)).contains other.id) ≠ true := by
    intro other otherMem
    have listed : other ∈ reg.classes.items := by
      rw [split]
      simp only [List.mem_append, List.mem_cons] at otherMem ⊢
      tauto
    have otherId : other.id ≠ node.id := different other otherMem
    have isKey : other.id ∈ reg.classes.keys := Store.key_mem_keys listed
    simp [isKey, otherId]
  rw [(coherent.sheds_focusOnClass known).1.classes, split, List.filter_append,
    List.filter_eq_nil_iff.mpr fun other otherMem => goes other (List.mem_append_left _ otherMem),
    List.filter_cons_of_pos (by simp),
    List.filter_eq_nil_iff.mpr fun other otherMem => goes other (List.mem_append_right _ otherMem)]
  rfl

/-- Exactly its methods stay. -/
theorem Coherent.methods_focusOnClass (coherent : reg.Coherent) {classId : NodeId}
    (known : classId ∈ reg.classes.keys) :
    (reg.focusOnClass classId).2.methods.items =
      reg.methods.items.filter fun row => row.classId == classId := by
  rw [(coherent.sheds_focusOnClass known).1.methods]
  apply List.filter_congr
  intro row rowMem
  obtain ⟨owner, ownerMem, ownerId, _⟩ := coherent.owner row rowMem
  have stored : row.classId ∈ reg.classes.keys := ownerId ▸ Store.key_mem_keys ownerMem
  by_cases owned : row.classId = classId <;> simp [owned, stored]

theorem Coherent.containsNode_focusOnClass (coherent : reg.Coherent) {classId : NodeId}
    (known : classId ∈ reg.classes.keys) (id : NodeId) :
    (reg.focusOnClass classId).2.containsNode id = true ↔
      id = classId ∨ id ∈ (reg.methodsOf classId).map Method.id := by
  obtain ⟨node, found⟩ := Store.exists_get? known
  obtain rfl : node.id = classId := Store.key_of_get? found
  have noStandalone : (reg.focusOnClass node.id).2.standalone.keys = [] := by
    rw [(coherent.sheds_focusOnClass known).1.standalone, Store.keys,
      coherent.standalone_eq_nil known]
    rfl
  have rows : id ∈ (reg.focusOnClass node.id).2.methods.keys ↔
      id ∈ (reg.methodsOf node.id).map Method.id := by
    simp only [Store.mem_keys_iff, coherent.methods_focusOnClass known, List.mem_map,
      List.mem_filter, beq_iff_eq, coherent.mem_methodsOf_iff]
    rfl
  rw [containsNode_iff, noStandalone, rows, Store.keys,
    coherent.classes_focusOnClass (Store.mem_of_get? found)]
  simp [Keyed.key]

/-! ## Deleting a node -/

/-- A removal finds whatever is on the map. -/
theorem deleteNode_fst (reg : Registry R) (id : NodeId) :
    (reg.deleteNode id).1 = reg.containsNode id := by
  rcases reg.deleteNode_cases id with ⟨_, found, deleted⟩ | ⟨_, _, found, deleted⟩ |
      ⟨_, _, _, found, deleted⟩ | ⟨unknown, same⟩
  · rw [deleted]
    exact (containsNode_iff.mpr (Or.inl (Store.mem_keys_of_get? found))).symm
  · rw [deleted]
    exact (containsNode_iff.mpr (Or.inr (Or.inl (Store.mem_keys_of_get? found)))).symm
  · rw [deleted]
    exact (containsNode_iff.mpr (Or.inr (Or.inr (Store.mem_keys_of_get? found)))).symm
  · rw [same, unknown]

theorem deleteNode_of_unknown {id : NodeId}
    (unknown : reg.containsNode id = false) : reg.deleteNode id = (false, reg) := by
  rcases result : reg.deleteNode id with ⟨found, left⟩
  have notFound : found = false := by
    rw [← unknown, ← deleteNode_fst, result]
  subst notFound
  rw [deleteNode_eq_of_false result]

theorem mem_methods_deleteNode (coherent : reg.Coherent) {method : Method} {id : NodeId}
    (mem : method ∈ reg.methods.items) (different : method.id ≠ id)
    (foreign : method.classId ≠ id) :
    method.id ∈ (reg.deleteNode id).2.methods.keys := by
  rcases reg.deleteNode_cases id with ⟨node, found, deleted⟩ | ⟨doomed, _, found, deleted⟩ |
      ⟨node, _, _, _, deleted⟩ | ⟨_, same⟩
  · rw [deleted]
    have nodeId : node.id = id := Store.key_of_get? found
    have kept := (coherent.sheds_deleteClass (Store.mem_of_get? found)).methods
    refine Store.key_mem_keys (?_ : method ∈ (reg.deleteClass node).methods.items)
    rw [kept, List.mem_filter]
    exact ⟨mem, by simpa [nodeId] using foreign⟩
  · rw [deleted, deleteMethod_eq]
    have doomedId : doomed.id = id := Store.key_of_get? found
    have coherentLeft := coherent.withoutMethod (Store.mem_of_get? found)
    rw [← keys_bare_methods, bare_refreshClass _ coherentLeft.methodKeys, keys_bare_methods]
    exact Store.key_mem_keys (Store.mem_erase.mpr ⟨mem, doomedId ▸ different⟩)
  · rw [deleted]
    exact Store.key_mem_keys mem
  · rw [same]
    exact Store.key_mem_keys mem

/-- Deleting a class takes its methods off the map, but for one that is a class
itself. -/
theorem Coherent.lost_of_owned (coherent : reg.Coherent) {other id : NodeId}
    (owned : id ∈ (reg.methodsOf other).map Method.id) (noClass : id ∉ reg.classes.keys) :
    (reg.deleteNode other).2.containsNode id = false := by
  obtain ⟨method, listed, rfl⟩ := List.mem_map.mp owned
  obtain ⟨mem, ownerId⟩ := coherent.mem_methodsOf_iff.mp listed
  obtain ⟨owner, ownerMem, ownerKey, methodListed⟩ := coherent.owner method mem
  have found : reg.classes.get? other = some owner := by
    rw [← ownerId, ← ownerKey]
    exact Store.get?_of_mem coherent.classKeys ownerMem
  rw [Registry.deleteNode, found, ← Bool.not_eq_true, containsNode_iff]
  rintro (isClass | isMethod | isStandalone)
  · exact noClass (Store.mem_keys_erase.mp isClass).1
  · exact (Store.mem_keys_foldl_erase.mp isMethod).2 methodListed
  · change method.id ∈ reg.standalone.keys at isStandalone
    rw [Store.keys, coherent.standalone_eq_nil (Store.mem_keys_of_get? found)] at isStandalone
    cases isStandalone

/-- Deleting a node takes no others along. -/
theorem Coherent.owned_of_lost (coherent : reg.Coherent) {other id : NodeId}
    (different : id ≠ other) (known : reg.containsNode id = true)
    (lost : (reg.deleteNode other).2.containsNode id = false) :
    id ∈ (reg.methodsOf other).map Method.id ∧ id ∉ reg.classes.keys := by
  rw [← Bool.not_eq_true, containsNode_iff] at lost
  obtain ⟨notClass, notMethod, notStandalone⟩ := not_or.mp lost |>.imp_right not_or.mp
  have noClass : id ∉ reg.classes.keys :=
    fun mem => notClass ((boxes_deleteNode coherent different).1 mem)
  refine ⟨?_, noClass⟩
  rcases containsNode_iff.mp known with isClass | isMethod | isStandalone
  · exact absurd isClass noClass
  · obtain ⟨method, mem, rfl⟩ := Store.mem_keys_iff.mp isMethod
    have owned : method.classId = other := by
      by_contra foreign
      exact notMethod (mem_methods_deleteNode coherent mem different foreign)
    exact List.mem_map_of_mem (coherent.mem_methodsOf_iff.mpr ⟨mem, owned⟩)
  · exact absurd ((boxes_deleteNode coherent different).2 isStandalone) notStandalone

end Registry

end CodeAtlas
