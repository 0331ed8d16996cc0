import CodeAtlas.Proofs.Registry.Frame

/-!
# Coherence of the registry

The stores of a registry agree with each other: rows and owners match, a focused
method is a row of its class, edges have both ends on the map, and the
perspective decides which kinds of nodes there are.  No clause survives a change
without the others, so they are kept as one invariant.
-/

namespace CodeAtlas

variable {R : Type} [Scalar R] {reg : Registry R}

namespace Registry

omit [Scalar R] in
theorem containsNode_iff {id : NodeId} :
    reg.containsNode id = true ↔
      id ∈ reg.classes.keys ∨ id ∈ reg.methods.keys ∨ id ∈ reg.standalone.keys := by
  simp only [containsNode, Bool.or_eq_true, Store.contains_iff, or_assoc]

/-- The stores agree with each other. -/
structure Coherent (reg : Registry R) : Prop where
  classKeys : reg.classes.keys.Nodup
  methodKeys : reg.methods.keys.Nodup
  standaloneKeys : reg.standalone.keys.Nodup
  edgeKeys : reg.edges.keys.Nodup
  /-- A method is a row of the class that it names as its owner. -/
  owner : ∀ method ∈ reg.methods.items, ∃ node ∈ reg.classes.items,
    node.id = method.classId ∧ method.id ∈ node.methods
  /-- No class has a row twice. -/
  rows : ∀ node ∈ reg.classes.items, node.methods.Nodup
  /-- A row of a class is a method that names the class as its owner. -/
  member : ∀ node ∈ reg.classes.items, ∀ id ∈ node.methods,
    ∃ method ∈ reg.methods.items, method.id = id ∧ method.classId = node.id
  /-- A focused method is a row of its class. -/
  focus : ∀ node ∈ reg.classes.items, ∀ id ∈ node.focusedMethod, id ∈ node.methods
  /-- Edges have both ends on the map. -/
  ends : ∀ edge ∈ reg.edges.items,
    reg.containsNode edge.source = true ∧ reg.containsNode edge.target = true
  /-- Ownership of methods is no edge. -/
  drawn : ∀ edge ∈ reg.edges.items, edge.kind ≠ .hasMethod
  technical : reg.perspective = .technical → reg.standalone.items = []
  architecture : reg.perspective = .architecture →
    reg.classes.items = [] ∧ reg.methods.items = []

/-! ## Coherence is about the bare registry -/

theorem containsNode_bare (reg : Registry R) (id : NodeId) :
    reg.bare.containsNode id = reg.containsNode id := by
  rw [Bool.eq_iff_iff, containsNode_iff, containsNode_iff, keys_bare_classes, keys_bare_methods,
    keys_bare_standalone]

theorem coherent_bare_iff : reg.bare.Coherent ↔ reg.Coherent := by
  have classKeys := keys_bare_classes reg
  have methodKeys := keys_bare_methods reg
  have standaloneKeys := keys_bare_standalone reg
  have edgeKeys := keys_bare_edges reg
  constructor
  all_goals
    intro coherent
    refine ⟨classKeys ▸ coherent.classKeys, methodKeys ▸ coherent.methodKeys,
      standaloneKeys ▸ coherent.standaloneKeys, edgeKeys ▸ coherent.edgeKeys, ?_, ?_, ?_, ?_, ?_,
      ?_, ?_, ?_⟩
    · simpa [bare, ClassNode.bare, Method.bare] using coherent.owner
    · simpa [bare, ClassNode.bare] using coherent.rows
    · simpa [bare, ClassNode.bare, Method.bare] using coherent.member
    · simpa [bare, ClassNode.bare] using coherent.focus
    · have ends := coherent.ends
      simp only [containsNode_bare] at ends ⊢
      simpa [bare, Edge.bare] using ends
    · simpa [bare, Edge.bare] using coherent.drawn
    · simpa [bare] using coherent.technical
    · simpa [bare] using coherent.architecture

/-- Registries that are alike when bare are coherent together. -/
theorem Coherent.of_bare_eq {reg other : Registry R} (coherent : reg.Coherent)
    (same : other.bare = reg.bare) : other.Coherent := by
  rw [← coherent_bare_iff, same, coherent_bare_iff]
  exact coherent

/-! ## The empty map -/

section
omit [Scalar R]

theorem coherent_of_empty (classes : reg.classes = {}) (methods : reg.methods = {})
    (standalone : reg.standalone = {}) (edges : reg.edges = {}) : reg.Coherent := by
  constructor <;> simp [classes, methods, standalone, edges, Store.keys]

theorem coherent_create (metrics : NodeMetrics R) (toggles : Toggles) (text : TextMetrics R) :
    (create metrics toggles text).Coherent :=
  coherent_of_empty rfl rfl rfl rfl

theorem coherent_clear (reg : Registry R) : reg.clear.Coherent :=
  coherent_of_empty rfl rfl rfl rfl

theorem Coherent.setPerspective (coherent : reg.Coherent)
    (perspective : Perspective) : (reg.setPerspective perspective).2.Coherent := by
  unfold Registry.setPerspective
  split
  · exact coherent
  · exact coherent_of_empty rfl rfl rfl rfl

end

/-! ## Display work -/

theorem Coherent.refreshClass (coherent : reg.Coherent)
    (classId : NodeId) : (reg.refreshClass classId).Coherent :=
  coherent.of_bare_eq (bare_refreshClass classId coherent.methodKeys)

theorem Coherent.applyPositions (coherent : reg.Coherent)
    (positions : Positions R) : (reg.applyPositions positions).Coherent :=
  coherent.of_bare_eq (bare_applyPositions reg positions)

theorem Coherent.updateEdgeGeometry (coherent : reg.Coherent) :
    reg.updateEdgeGeometry.Coherent :=
  coherent.of_bare_eq (bare_updateEdgeGeometry reg)

/-! ## Toggles and focus -/

omit [Scalar R] in
/-- The class that a method names as its owner lists the method. -/
theorem Coherent.listed_of_owner (coherent : reg.Coherent) {method : Method}
    {node : ClassNode R} (methodMem : method ∈ reg.methods.items)
    (nodeMem : node ∈ reg.classes.items) (ownerId : node.id = method.classId) :
    method.id ∈ node.methods := by
  obtain ⟨owner, ownerMem, idEq, listed⟩ := coherent.owner method methodMem
  have same : owner = node :=
    Store.eq_of_key_eq coherent.classKeys ownerMem nodeMem (idEq.trans ownerId.symm)
  exact same ▸ listed

/-- A class with other toggles and another focus, its rows still as they were. -/
def reconfigure (reg : Registry R) (classId : NodeId) (toggles : Toggles → Toggles)
    (focus : Option NodeId → Option NodeId) : Registry R :=
  { reg with
    classes := reg.classes.modify classId fun node =>
      { node with toggles := toggles node.toggles, focusedMethod := focus node.focusedMethod } }

/-- What toggles and focus can do: nothing, or one class gets other toggles and
focuses at most on one of its methods, and its rows are refreshed. -/
def RowsChange (reg : Registry R) (result : Bool × Registry R) : Prop :=
  result = (false, reg) ∨
    ∃ classId toggles focus,
      (∀ node ∈ reg.classes.items, node.id = classId →
        ∀ id ∈ focus node.focusedMethod, id ∈ node.methods) ∧
      result = (true, (reg.reconfigure classId toggles focus).refreshClass classId)

theorem rowsChange_setToggle (coherent : reg.Coherent) (classId : NodeId) (toggle : Toggle)
    (enabled : Bool) :
    reg.RowsChange (reg.setToggle classId toggle enabled) := by
  unfold setToggle
  split
  · exact Or.inl rfl
  · split
    · exact Or.inl rfl
    · exact Or.inr ⟨classId, fun toggles => toggles.set toggle enabled, id,
        fun node mem _ => coherent.focus node mem, rfl⟩

theorem rowsChange_flipToggle (coherent : reg.Coherent) (classId : NodeId) (toggle : Toggle) :
    reg.RowsChange (reg.flipToggle classId toggle) := by
  unfold flipToggle
  split
  · exact Or.inl rfl
  · exact rowsChange_setToggle coherent classId toggle _

theorem rowsChange_focusMethod (coherent : reg.Coherent)
    (methodId : NodeId) : reg.RowsChange (reg.focusMethod methodId) := by
  unfold focusMethod
  cases found : reg.methods.get? methodId with
  | none => exact Or.inl rfl
  | some method =>
    dsimp only
    split
    · exact Or.inl rfl
    · split
      · exact Or.inl rfl
      · refine Or.inr ⟨method.classId, id, fun _ => some methodId, ?_, rfl⟩
        intro node mem same id focused
        cases focused
        have methodEq : method.id = methodId := Store.key_of_get? found
        rw [← methodEq]
        exact coherent.listed_of_owner (Store.mem_of_get? found) mem same

theorem rowsChange_restoreMethods (reg : Registry R) (classId : NodeId) :
    reg.RowsChange (reg.restoreMethods classId) := by
  unfold restoreMethods
  split
  · exact Or.inl rfl
  · split
    · exact Or.inl rfl
    · refine Or.inr ⟨classId, id, fun _ => none, ?_, rfl⟩
      intro node _ _ id focused
      cases focused

omit [Scalar R] in
theorem Coherent.reconfigure (coherent : reg.Coherent)
    {classId : NodeId} (toggles : Toggles → Toggles) {focus : Option NodeId → Option NodeId}
    (focusListed : ∀ node ∈ reg.classes.items, node.id = classId →
      ∀ id ∈ focus node.focusedMethod, id ∈ node.methods) :
    (reg.reconfigure classId toggles focus).Coherent := by
  have keysEq : (reg.reconfigure classId toggles focus).classes.keys = reg.classes.keys :=
    Store.keys_modify fun _ same => same
  -- Every class of the changed store stands for one of the old store, and back.
  have back : ∀ node ∈ (reg.reconfigure classId toggles focus).classes.items,
      ∃ old ∈ reg.classes.items, node.id = old.id ∧ node.methods = old.methods ∧
        ∀ id ∈ node.focusedMethod, id ∈ old.methods := by
    intro node mem
    rcases Store.mem_modify.mp mem with ⟨old, oldMem, same, rfl⟩ | ⟨oldMem, _⟩
    · exact ⟨old, oldMem, rfl, rfl, focusListed old oldMem same⟩
    · exact ⟨node, oldMem, rfl, rfl, coherent.focus node oldMem⟩
  have forth : ∀ old ∈ reg.classes.items,
      ∃ node ∈ (reg.reconfigure classId toggles focus).classes.items,
        node.id = old.id ∧ node.methods = old.methods := by
    intro old oldMem
    by_cases same : old.id = classId
    · exact ⟨_, Store.mem_modify.mpr (Or.inl ⟨old, oldMem, same, rfl⟩), rfl, rfl⟩
    · exact ⟨old, Store.mem_modify.mpr (Or.inr ⟨oldMem, same⟩), rfl, rfl⟩
  refine ⟨keysEq ▸ coherent.classKeys, coherent.methodKeys, coherent.standaloneKeys,
    coherent.edgeKeys, ?_, ?_, ?_, ?_, ?_, coherent.drawn, coherent.technical, ?_⟩
  · intro method mem
    obtain ⟨old, oldMem, ownerId, listed⟩ := coherent.owner method mem
    obtain ⟨node, nodeMem, idEq, rowsEq⟩ := forth old oldMem
    exact ⟨node, nodeMem, idEq.trans ownerId, rowsEq ▸ listed⟩
  · intro node mem
    obtain ⟨old, oldMem, _, rowsEq, _⟩ := back node mem
    exact rowsEq ▸ coherent.rows old oldMem
  · intro node mem id listed
    obtain ⟨old, oldMem, idEq, rowsEq, _⟩ := back node mem
    obtain ⟨method, methodMem, methodId, ownerId⟩ := coherent.member old oldMem id (rowsEq ▸ listed)
    exact ⟨method, methodMem, methodId, ownerId.trans idEq.symm⟩
  · intro node mem id focused
    obtain ⟨old, _, _, rowsEq, focusMem⟩ := back node mem
    exact rowsEq ▸ focusMem id focused
  · intro edge mem
    have ends := coherent.ends edge mem
    simp only [containsNode_iff] at ends ⊢
    rw [keysEq]
    exact ends
  · intro perspective
    obtain ⟨noClasses, noMethods⟩ := coherent.architecture perspective
    exact ⟨by simp [Registry.reconfigure, Store.modify, noClasses], noMethods⟩

/-- Toggles and focus take nothing off the map, and a method stays what it is
apart from its row. -/
theorem RowsChange.keeps {result : Bool × Registry R} (change : reg.RowsChange result)
    (coherent : reg.Coherent) :
    result.2.classes.keys = reg.classes.keys ∧
      result.2.bare.methods = reg.bare.methods ∧
      result.2.bare.standalone = reg.bare.standalone := by
  rcases change with rfl | ⟨classId, toggles, focus, focusListed, rfl⟩
  · exact ⟨rfl, rfl, rfl⟩
  · have refreshed := bare_refreshClass classId
      (coherent.reconfigure toggles focusListed).methodKeys
    refine ⟨?_, ?_, ?_⟩
    · rw [← keys_bare_classes, refreshed, keys_bare_classes]
      exact Store.keys_modify fun _ same => same
    · rw [refreshed]
      rfl
    · rw [refreshed]
      rfl

theorem Coherent.rowsChange (coherent : reg.Coherent) {result : Bool × Registry R}
    (change : reg.RowsChange result) : result.2.Coherent := by
  rcases change with rfl | ⟨classId, toggles, focus, focusListed, rfl⟩
  · exact coherent
  · exact (coherent.reconfigure toggles focusListed).refreshClass classId

end Registry

end CodeAtlas
