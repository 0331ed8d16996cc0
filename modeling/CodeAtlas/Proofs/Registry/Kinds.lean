import CodeAtlas.Proofs.Registry.Settled

/-!
# Ids that name one thing

A batch may call one id a class and a method.  As long as no batch does, no id
ever names both a class and a method on the map.
-/

namespace CodeAtlas

variable {R : Type} [Scalar R] {reg : Registry R}

/-- No id comes with two kinds. -/
def OneKind (nodes : List Node) : Prop :=
  ∀ first ∈ nodes, ∀ second ∈ nodes, first.id = second.id → first.kind = second.kind

namespace Registry

/-- No id names both a class and a method. -/
def Unambiguous (reg : Registry R) : Prop :=
  ∀ id ∈ reg.classes.keys, id ∉ reg.methods.keys

/-- The one map has no class and no method that the other has not. -/
structure Within (other reg : Registry R) : Prop where
  classes : ∀ id ∈ other.classes.keys, id ∈ reg.classes.keys
  methods : ∀ id ∈ other.methods.keys, id ∈ reg.methods.keys

omit [Scalar R] in
theorem Unambiguous.of_within {reg other : Registry R} (unambiguous : reg.Unambiguous)
    (within : other.Within reg) : other.Unambiguous :=
  fun id isClass isMethod => unambiguous id (within.classes id isClass) (within.methods id isMethod)

omit [Scalar R] in
theorem unambiguous_of_empty (classes : reg.classes.items = []) :
    reg.Unambiguous := by
  intro id isClass
  rw [Store.keys, classes] at isClass
  cases isClass

/-! ## Operations that bring nothing -/

section
omit [Scalar R]

theorem within_refl (reg : Registry R) : reg.Within reg :=
  ⟨fun _ mem => mem, fun _ mem => mem⟩

theorem Within.trans {first second third : Registry R} (left : first.Within second)
    (right : second.Within third) : first.Within third :=
  ⟨fun id mem => right.classes id (left.classes id mem),
    fun id mem => right.methods id (left.methods id mem)⟩

theorem within_of_empty {other : Registry R} (classes : other.classes.items = [])
    (methods : other.methods.items = []) (reg : Registry R) : other.Within reg := by
  constructor
  · simp [Store.keys, classes]
  · simp [Store.keys, methods]

end

theorem within_of_bare_eq {reg other : Registry R} (same : other.bare = reg.bare) :
    other.Within reg := by
  constructor
  · rw [← keys_bare_classes, same, keys_bare_classes]
    exact fun id mem => mem
  · rw [← keys_bare_methods, same, keys_bare_methods]
    exact fun id mem => mem

theorem Unambiguous.of_bare_eq {reg other : Registry R} (unambiguous : reg.Unambiguous)
    (same : other.bare = reg.bare) : other.Unambiguous :=
  unambiguous.of_within (within_of_bare_eq same)

omit [Scalar R] in
theorem within_setPerspective (reg : Registry R) (perspective : Perspective) :
    (reg.setPerspective perspective).2.Within reg := by
  unfold Registry.setPerspective
  split
  · exact within_refl reg
  · exact within_of_empty rfl rfl reg

theorem Coherent.within_rowsChange (coherent : reg.Coherent) {result : Bool × Registry R}
    (change : reg.RowsChange result) :
    result.2.Within reg := by
  obtain ⟨classKeys, methods, _⟩ := change.keeps coherent
  constructor
  · rw [classKeys]
    exact fun id mem => mem
  · rw [← keys_bare_methods, methods, keys_bare_methods]
    exact fun id mem => mem

theorem Coherent.within_deleteNode (coherent : reg.Coherent)
    (id : NodeId) : (reg.deleteNode id).2.Within reg := by
  rcases reg.deleteNode_cases id with ⟨node, _, deleted⟩ | ⟨method, _, found, deleted⟩ |
      ⟨node, _, _, _, deleted⟩ | ⟨_, same⟩
  · rw [deleted]
    constructor
    · exact fun id mem => Store.keys_erase_sublist.subset mem
    · exact fun id mem => Store.keys_foldl_erase_sublist.subset mem
  · rw [deleted, deleteMethod_eq]
    have left : (reg.withoutMethod method).Within reg := by
      constructor
      · rw [keys_classes_withoutMethod]
        exact fun id mem => mem
      · exact fun id mem => Store.keys_erase_sublist.subset mem
    have refreshed := bare_refreshClass method.classId
      (coherent.withoutMethod (Store.mem_of_get? found)).methodKeys
    exact (within_of_bare_eq refreshed).trans left
  · rw [deleted]
    exact ⟨fun _ mem => mem, fun _ mem => mem⟩
  · rw [same]
    exact within_refl reg

theorem Coherent.within_focusOnClass (coherent : reg.Coherent)
    (classId : NodeId) : (reg.focusOnClass classId).2.Within reg :=
  (coherent.focusOnClass_induction classId (motive := fun left => left.Within reg)
    (within_refl reg) ⟨fun _ mem => mem, fun _ mem => mem⟩
    fun _ coherentLeft held id _ => (coherentLeft.within_deleteNode id).trans held).2

/-! ## Taking in data -/

/-- A method that waits for its owner comes from the batch and shares its id with
no class. -/
structure Waiting (nodes : List Node) (state : Ingest R) : Prop where
  unambiguous : state.registry.Unambiguous
  pending : ∀ node ∈ state.pending.items,
    node ∈ nodes ∧ node.kind = .method ∧ node.id ∉ state.registry.classes.keys

theorem Waiting.technicalNode {nodes : List Node} {state : Ingest R}
    (waiting : Waiting nodes state) (oneKind : OneKind nodes) {node : Node} (mem : node ∈ nodes) :
    Waiting nodes (state.technicalNode node) := by
  rcases Ingest.technicalNode_cases state node with same | ⟨new, isClass, added⟩ |
      ⟨new, isMethod, added⟩
  · rw [same]
    exact waiting
  · rw [added]
    obtain ⟨newClass, newMethod, _⟩ := Ingest.not_mem_keys_of_new new
    have keysEq : (state.registry.classes.insert
        (.ofNode node state.registry.defaultToggles)).keys =
          state.registry.classes.keys ++ [node.id] :=
      Store.keys_insert_of_new newClass
    constructor
    · intro id isKnown
      rw [keysEq, List.mem_append, List.mem_singleton] at isKnown
      rcases isKnown with old | rfl
      · exact waiting.unambiguous id old
      · exact newMethod
    · intro other otherMem
      obtain ⟨inBatch, otherMethod, notClass⟩ := waiting.pending other otherMem
      refine ⟨inBatch, otherMethod, ?_⟩
      rw [keysEq, List.mem_append, List.mem_singleton]
      rintro (old | same)
      · exact notClass old
      · have kindEq := oneKind other inBatch node mem same
        rw [otherMethod, isClass] at kindEq
        cases kindEq
  · rw [added]
    refine ⟨waiting.unambiguous, ?_⟩
    intro other otherMem
    rcases Store.eq_or_mem_of_mem_insert otherMem with rfl | old
    · exact ⟨mem, isMethod, (Ingest.not_mem_keys_of_new new).1⟩
    · exact waiting.pending other old

omit [Scalar R] in
theorem Waiting.claimMethod {nodes : List Node} {state : Ingest R}
    (waiting : Waiting nodes state) (ready : state.Ready) (link : Relationship) :
    Waiting nodes (state.claimMethod link) := by
  rcases Ingest.claimMethod_cases state link with same | ⟨node, _, _, found, claimed⟩
  · rw [same]
    exact waiting
  · rw [claimed]
    have pendingMem := Store.mem_of_get? found
    have classKeys : (state.registry.classes.modify link.source fun owner =>
        { owner with methods := owner.methods ++ [node.id] }).keys = state.registry.classes.keys :=
      Store.keys_modify fun _ same => same
    have methodKeys : (state.registry.methods.insert (.ofNode node link.source)).keys =
        state.registry.methods.keys ++ [node.id] :=
      Store.keys_insert_of_new (ready.pending node pendingMem)
    constructor
    · intro id isClass isMethod
      rw [classKeys] at isClass
      rw [methodKeys, List.mem_append, List.mem_singleton] at isMethod
      rcases isMethod with old | rfl
      · exact waiting.unambiguous id isClass old
      · exact (waiting.pending node pendingMem).2.2 isClass
    · intro other otherMem
      obtain ⟨inBatch, otherMethod, notClass⟩ :=
        waiting.pending other (Store.mem_erase.mp otherMem).1
      refine ⟨inBatch, otherMethod, ?_⟩
      rw [classKeys]
      exact notClass

/-- A batch in which every id has one kind keeps ids unambiguous. -/
theorem Unambiguous.addData (unambiguous : reg.Unambiguous) (coherent : reg.Coherent)
    {nodes : List Node} (oneKind : OneKind nodes) (links : List Relationship) :
    (reg.addData nodes links).2.Unambiguous := by
  have waiting : Waiting nodes (reg.withData nodes links) := by
    apply coherent.withData_induction
    · exact ⟨unambiguous, by simp⟩
    · exact fun state _ waiting node mem => waiting.technicalNode oneKind mem
    · exact fun state ready waiting link => waiting.claimMethod ready link
    · intro state ready waiting
      have same : state.refreshTouched.registry.bare = state.registry.bare :=
        bare_refreshClasses _ ready.coherent.methodKeys
      refine ⟨waiting.unambiguous.of_bare_eq same, ?_⟩
      intro node mem
      rw [← keys_bare_classes, same, keys_bare_classes]
      exact waiting.pending node mem
    · intro state _ waiting node
      rcases Ingest.architectureNode_cases state node with
        same | ⟨item, _, _, _, _, _, _, _, added⟩
      · rw [same]
        exact waiting
      · rw [added]
        exact ⟨waiting.unambiguous, waiting.pending⟩
    · intro state waiting link
      rcases Ingest.edge_cases state link with ⟨_, same⟩ | ⟨_, _, _, _, added⟩
      · rw [same]
        exact ⟨waiting.unambiguous, waiting.pending⟩
      · rw [added]
        exact ⟨waiting.unambiguous, waiting.pending⟩
  exact waiting.unambiguous

/-! ## Maps in order -/

/-- Coherent, with rows as toggles and focus ask for, and with one meaning for
every id. -/
structure Orderly (reg : Registry R) : Prop where
  coherent : reg.Coherent
  settled : reg.Settled
  unambiguous : reg.Unambiguous

section
omit [Scalar R]

theorem orderly_create (metrics : NodeMetrics R) (toggles : Toggles) (text : TextMetrics R) :
    (create metrics toggles text).Orderly :=
  ⟨coherent_create metrics toggles text, settled_of_empty rfl rfl, unambiguous_of_empty rfl⟩

theorem orderly_clear (reg : Registry R) : reg.clear.Orderly :=
  ⟨coherent_clear reg, settled_clear reg, unambiguous_of_empty rfl⟩

theorem Orderly.setPerspective (orderly : reg.Orderly)
    (perspective : Perspective) : (reg.setPerspective perspective).2.Orderly :=
  ⟨orderly.coherent.setPerspective perspective, orderly.settled.setPerspective perspective,
    orderly.unambiguous.of_within (within_setPerspective reg perspective)⟩

end

theorem Orderly.addData (orderly : reg.Orderly) {nodes : List Node} (oneKind : OneKind nodes)
    (links : List Relationship) :
    (reg.addData nodes links).2.Orderly :=
  ⟨orderly.coherent.addData nodes links, orderly.settled.addData orderly.coherent nodes links,
    orderly.unambiguous.addData orderly.coherent oneKind links⟩

theorem Orderly.deleteNode (orderly : reg.Orderly) (id : NodeId) :
    (reg.deleteNode id).2.Orderly :=
  ⟨orderly.coherent.deleteNode id, orderly.settled.deleteNode orderly.coherent id,
    orderly.unambiguous.of_within (orderly.coherent.within_deleteNode id)⟩

theorem Orderly.focusOnClass (orderly : reg.Orderly)
    (classId : NodeId) : (reg.focusOnClass classId).2.Orderly :=
  ⟨orderly.coherent.focusOnClass classId, orderly.settled.focusOnClass orderly.coherent classId,
    orderly.unambiguous.of_within (orderly.coherent.within_focusOnClass classId)⟩

theorem Orderly.rowsChange (orderly : reg.Orderly) {result : Bool × Registry R}
    (change : reg.RowsChange result) : result.2.Orderly :=
  ⟨orderly.coherent.rowsChange change, orderly.settled.rowsChange orderly.coherent change,
    orderly.unambiguous.of_within (orderly.coherent.within_rowsChange change)⟩

end Registry

end CodeAtlas
