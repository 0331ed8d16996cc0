import CodeAtlas.Proofs.Registry.Settled

/-!
# Which rows stay on the map

A row that is shown stays shown while data comes in and while other things go.
For a settled registry this needs no look at the rows themselves: what is shown
follows from toggles and focus.
-/

namespace CodeAtlas

variable {R : Type} [Scalar R] {reg : Registry R}

namespace Registry

/-- The method is stored, belongs to the class and is visible. -/
def Shows (reg : Registry R) (classId methodId : NodeId) : Prop :=
  ∃ method ∈ reg.methods.items,
    method.id = methodId ∧ method.classId = classId ∧ method.visible = true

/-! ## Growth -/

/-- Everything on the first map is on the second one, with the same toggles and
the same focus. -/
structure Grows (reg grown : Registry R) : Prop where
  classes : ∀ node ∈ reg.classes.items, ∃ kept ∈ grown.classes.items,
    kept.id = node.id ∧ kept.toggles = node.toggles ∧ kept.focusedMethod = node.focusedMethod
  methods : ∀ method ∈ reg.methods.items, ∃ kept ∈ grown.methods.items,
    kept.bare = method.bare
  standalone : ∀ node ∈ reg.standalone.items, ∃ kept ∈ grown.standalone.items,
    kept.id = node.id

section
omit [Scalar R]

theorem Grows.refl (reg : Registry R) : reg.Grows reg :=
  ⟨fun node mem => ⟨node, mem, rfl, rfl, rfl⟩, fun method mem => ⟨method, mem, rfl⟩,
    fun node mem => ⟨node, mem, rfl⟩⟩

theorem grows_of_subset {reg grown : Registry R}
    (classes : ∀ node ∈ reg.classes.items, node ∈ grown.classes.items)
    (methods : ∀ method ∈ reg.methods.items, method ∈ grown.methods.items)
    (standalone : ∀ node ∈ reg.standalone.items, node ∈ grown.standalone.items) :
    reg.Grows grown :=
  ⟨fun node mem => ⟨node, classes node mem, rfl, rfl, rfl⟩,
    fun method mem => ⟨method, methods method mem, rfl⟩,
    fun node mem => ⟨node, standalone node mem, rfl⟩⟩

theorem Grows.trans {first second third : Registry R} (grows : first.Grows second)
    (more : second.Grows third) : first.Grows third := by
  constructor
  · intro node mem
    obtain ⟨kept, keptMem, id, toggles, focus⟩ := grows.classes node mem
    obtain ⟨last, lastMem, lastId, lastToggles, lastFocus⟩ := more.classes kept keptMem
    exact ⟨last, lastMem, lastId.trans id, lastToggles.trans toggles, lastFocus.trans focus⟩
  · intro method mem
    obtain ⟨kept, keptMem, same⟩ := grows.methods method mem
    obtain ⟨last, lastMem, lastSame⟩ := more.methods kept keptMem
    exact ⟨last, lastMem, lastSame.trans same⟩
  · intro node mem
    obtain ⟨kept, keptMem, id⟩ := grows.standalone node mem
    obtain ⟨last, lastMem, lastId⟩ := more.standalone kept keptMem
    exact ⟨last, lastMem, lastId.trans id⟩

end

theorem grows_of_bare_eq {reg other : Registry R} (same : other.bare = reg.bare) :
    reg.Grows other := by
  have classes : other.classes.items.map ClassNode.bare =
      reg.classes.items.map ClassNode.bare :=
    congrArg (fun bare => bare.classes.items) same
  have methods : other.methods.items.map Method.bare = reg.methods.items.map Method.bare :=
    congrArg (fun bare => bare.methods.items) same
  have standalone : other.standalone.items.map StandaloneNode.bare =
      reg.standalone.items.map StandaloneNode.bare :=
    congrArg (fun bare => bare.standalone.items) same
  constructor
  · intro node mem
    have bareMem : node.bare ∈ other.classes.items.map ClassNode.bare := by
      rw [classes]
      exact List.mem_map.mpr ⟨node, mem, rfl⟩
    obtain ⟨kept, keptMem, keptBare⟩ := List.mem_map.mp bareMem
    have idEq : kept.bare.id = node.bare.id := congrArg ClassNode.id keptBare
    have togglesEq : kept.bare.toggles = node.bare.toggles := congrArg ClassNode.toggles keptBare
    have focusEq : kept.bare.focusedMethod = node.bare.focusedMethod :=
      congrArg ClassNode.focusedMethod keptBare
    exact ⟨kept, keptMem, idEq, togglesEq, focusEq⟩
  · intro method mem
    have bareMem : method.bare ∈ other.methods.items.map Method.bare := by
      rw [methods]
      exact List.mem_map.mpr ⟨method, mem, rfl⟩
    exact List.mem_map.mp bareMem
  · intro node mem
    have bareMem : node.bare ∈ other.standalone.items.map StandaloneNode.bare := by
      rw [standalone]
      exact List.mem_map.mpr ⟨node, mem, rfl⟩
    obtain ⟨kept, keptMem, keptBare⟩ := List.mem_map.mp bareMem
    have idEq : kept.bare.id = node.bare.id := congrArg StandaloneNode.id keptBare
    exact ⟨kept, keptMem, idEq⟩

theorem Coherent.grows_addData (coherent : reg.Coherent) (nodes : List Node)
    (links : List Relationship) :
    reg.Grows (reg.addData nodes links).2 := by
  apply coherent.withData_induction
    (motive := fun (state : Ingest R) => reg.Grows state.registry)
  · exact Grows.refl reg
  · intro state _ grows node _
    rcases Ingest.technicalNode_cases state node with same | ⟨new, _, added⟩ | ⟨_, _, added⟩
    · rw [same]
      exact grows
    · rw [added]
      apply grows.trans
      apply grows_of_subset
      · exact fun other mem =>
          (Store.mem_insert_of_new (Ingest.not_mem_keys_of_new new).1).mpr (Or.inl mem)
      · exact fun method mem => mem
      · exact fun other mem => mem
    · rw [added]
      exact grows
  · intro state ready grows link
    rcases Ingest.claimMethod_cases state link with same | ⟨node, _, _, found, claimed⟩
    · rw [same]
      exact grows
    · rw [claimed]
      have new : node.id ∉ state.registry.methods.keys :=
        ready.pending node (Store.mem_of_get? found)
      apply grows.trans
      constructor
      · intro other mem
        by_cases owner : other.id = link.source
        · exact ⟨_, Store.mem_modify.mpr (Or.inl ⟨other, mem, owner, rfl⟩), rfl, rfl, rfl⟩
        · exact ⟨other, Store.mem_modify.mpr (Or.inr ⟨mem, owner⟩), rfl, rfl, rfl⟩
      · exact fun method mem =>
          ⟨method, (Store.mem_insert_of_new new).mpr (Or.inl mem), rfl⟩
      · exact fun other mem => ⟨other, mem, rfl⟩
  · intro state ready grows
    exact grows.trans (grows_of_bare_eq (bare_refreshClasses _ ready.coherent.methodKeys))
  · intro state _ grows node
    rcases Ingest.architectureNode_cases state node with
      same | ⟨item, _, _, new, _, itemId, _, _, added⟩
    · rw [same]
      exact grows
    · rw [added]
      have itemNew : item.id ∉ state.registry.standalone.keys :=
        itemId ▸ (Ingest.not_mem_keys_of_new new).2.2
      apply grows.trans
      apply grows_of_subset
      · exact fun other mem => mem
      · exact fun method mem => mem
      · exact fun other mem => (Store.mem_insert_of_new itemNew).mpr (Or.inl mem)
  · intro state grows link
    rcases Ingest.edge_cases state link with ⟨_, same⟩ | ⟨_, _, _, _, added⟩
    · rw [same]
      exact grows
    · rw [added]
      exact grows.trans (grows_of_subset (fun _ mem => mem) (fun _ mem => mem) fun _ mem => mem)

omit [Scalar R] in
/-- On a settled map, a method is shown if its class asks for it. -/
theorem Settled.shows (settled : reg.Settled) {method kept : Method} {owner : ClassNode R}
    (keptMem : kept ∈ reg.methods.items) (same : kept.bare = method.bare)
    (ownerMem : owner ∈ reg.classes.items) (ownerId : owner.id = method.classId)
    (asked : method.isShown owner.toggles owner.focusedMethod = true) :
    reg.Shows method.classId method.id := by
  have keptId : kept.bare.id = method.bare.id := congrArg Method.id same
  have keptClass : kept.bare.classId = method.bare.classId := congrArg Method.classId same
  have visible : kept.visible = kept.isShown owner.toggles owner.focusedMethod :=
    settled.rows owner ownerMem List.not_mem_nil kept keptMem (keptClass.trans ownerId.symm)
  have sameRow : kept.bare.isShown owner.toggles owner.focusedMethod =
      method.bare.isShown owner.toggles owner.focusedMethod := by
    rw [same]
  exact ⟨kept, keptMem, keptId, keptClass, visible.trans (sameRow.trans asked)⟩

omit [Scalar R] in
/-- Between settled maps, growth keeps every row that is shown. -/
theorem Shows.of_grows {reg grown : Registry R} {classId methodId : NodeId}
    (shown : reg.Shows classId methodId) (coherent : reg.Coherent)
    (settled : reg.Settled) (grownSettled : grown.Settled) (grows : reg.Grows grown) :
    grown.Shows classId methodId := by
  obtain ⟨method, methodMem, rfl, rfl, visible⟩ := shown
  obtain ⟨owner, ownerMem, ownerId, _⟩ := coherent.owner method methodMem
  obtain ⟨kept, keptMem, keptBare⟩ := grows.methods method methodMem
  obtain ⟨keptOwner, keptOwnerMem, keptOwnerId, toggles, focus⟩ := grows.classes owner ownerMem
  apply grownSettled.shows keptMem keptBare keptOwnerMem (keptOwnerId.trans ownerId)
  have asked := settled.rows owner ownerMem List.not_mem_nil method methodMem ownerId.symm
  rw [toggles, focus, ← asked]
  exact visible

/-! ## Removal -/

omit [Scalar R] in
/-- The class of a method that stays keeps its toggles when another method goes,
and its focus unless it was on that one. -/
theorem mem_classes_withoutMethod {owner : ClassNode R} (doomed : Method)
    (ownerMem : owner ∈ reg.classes.items) :
    ∃ left ∈ (reg.withoutMethod doomed).classes.items,
      left.id = owner.id ∧ left.toggles = owner.toggles ∧
        (left.focusedMethod = owner.focusedMethod ∨
          left.focusedMethod = owner.focusedMethod.filter (· ≠ doomed.id)) := by
  by_cases same : owner.id = doomed.classId
  · exact ⟨_, Store.mem_modify.mpr (Or.inl ⟨owner, ownerMem, same, rfl⟩), rfl, rfl, Or.inr rfl⟩
  · exact ⟨owner, Store.mem_modify.mpr (Or.inr ⟨ownerMem, same⟩), rfl, rfl, Or.inl rfl⟩

/-- A method that is shown is asked for also after another one is out of focus. -/
theorem isShown_of_filter_focus {method doomed : Method} {toggles : Toggles}
    {focus left : Option NodeId} (different : method.id ≠ doomed.id)
    (asked : method.isShown toggles focus = true)
    (focusEq : left = focus ∨ left = focus.filter (· ≠ doomed.id)) :
    method.isShown toggles left = true := by
  rcases focusEq with rfl | rfl
  · exact asked
  · cases focus with
    | none => exact asked
    | some focused =>
      have focusedEq : focused = method.id := by simpa [Method.isShown] using asked
      have kept : (some focused).filter (· ≠ doomed.id) = some focused := by
        simp [focusedEq, different]
      rw [kept]
      exact asked

/-- What is removed takes no other row out of sight. -/
theorem Shows.deleteNode {classId methodId id : NodeId} (shown : reg.Shows classId methodId)
    (coherent : reg.Coherent) (settled : reg.Settled) (different : methodId ≠ id)
    (notOwned : methodId ∉ (reg.methodsOf id).map Method.id) :
    (reg.deleteNode id).2.Shows classId methodId := by
  have settledAfter := settled.deleteNode coherent id
  obtain ⟨method, methodMem, rfl, rfl, visible⟩ := shown
  rcases reg.deleteNode_cases id with ⟨node, found, deleted⟩ | ⟨doomed, _, found, deleted⟩ |
      ⟨node, _, _, _, deleted⟩ | ⟨_, same⟩
  · have unlisted : method.id ∉ node.methods := by
      rw [methodsOf, found] at notOwned
      rw [← coherent.map_id_rows (Store.mem_of_get? found)]
      exact notOwned
    rw [deleted]
    exact ⟨method, Store.mem_foldl_erase.mpr ⟨methodMem, unlisted⟩, rfl, rfl, visible⟩
  · have doomedId : doomed.id = id := Store.key_of_get? found
    rw [deleted, deleteMethod_eq] at settledAfter ⊢
    have coherentLeft := coherent.withoutMethod (Store.mem_of_get? found)
    have grows : (reg.withoutMethod doomed).Grows
        ((reg.withoutMethod doomed).refreshClass doomed.classId) :=
      grows_of_bare_eq (bare_refreshClass _ coherentLeft.methodKeys)
    obtain ⟨owner, ownerMem, ownerId, _⟩ := coherent.owner method methodMem
    obtain ⟨left, leftMem, leftId, leftToggles, leftFocus⟩ :=
      mem_classes_withoutMethod doomed ownerMem
    obtain ⟨kept, keptMem, keptBare⟩ :=
      grows.methods method (Store.mem_erase.mpr ⟨methodMem, doomedId ▸ different⟩)
    obtain ⟨keptOwner, keptOwnerMem, keptOwnerId, toggles, focus⟩ := grows.classes left leftMem
    apply settledAfter.shows keptMem keptBare keptOwnerMem
      (keptOwnerId.trans (leftId.trans ownerId))
    have asked := settled.rows owner ownerMem List.not_mem_nil method methodMem ownerId.symm
    rw [toggles, focus, leftToggles]
    exact isShown_of_filter_focus (doomedId ▸ different) (asked.symm.trans visible) leftFocus
  · rw [deleted]
    exact ⟨method, methodMem, rfl, rfl, visible⟩
  · rw [same]
    exact ⟨method, methodMem, rfl, rfl, visible⟩

/-- Deleting a node leaves the other boxes on the map. -/
theorem boxes_deleteNode (coherent : reg.Coherent) {other id : NodeId} (different : other ≠ id) :
    (other ∈ reg.classes.keys → other ∈ (reg.deleteNode id).2.classes.keys) ∧
      (other ∈ reg.standalone.keys → other ∈ (reg.deleteNode id).2.standalone.keys) := by
  rcases reg.deleteNode_cases id with ⟨node, found, deleted⟩ | ⟨doomed, _, found, deleted⟩ |
      ⟨node, _, _, found, deleted⟩ | ⟨_, same⟩
  · have nodeId : node.id = id := Store.key_of_get? found
    rw [deleted]
    exact ⟨fun mem => Store.mem_keys_erase.mpr ⟨mem, nodeId ▸ different⟩, fun mem => mem⟩
  · have coherentLeft := coherent.withoutMethod (Store.mem_of_get? found)
    have bare := bare_refreshClass doomed.classId coherentLeft.methodKeys
    rw [deleted, deleteMethod_eq]
    refine ⟨fun mem => ?_, fun mem => ?_⟩
    · rwa [← keys_bare_classes, bare, keys_bare_classes, keys_classes_withoutMethod]
    · rwa [← keys_bare_standalone, bare, keys_bare_standalone]
  · have nodeId : node.id = id := Store.key_of_get? found
    rw [deleted]
    exact ⟨fun mem => mem, fun mem => Store.mem_keys_erase.mpr ⟨mem, nodeId ▸ different⟩⟩
  · rw [same]
    exact ⟨fun mem => mem, fun mem => mem⟩

end Registry

end CodeAtlas
