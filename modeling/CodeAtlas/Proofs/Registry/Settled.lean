import CodeAtlas.Proofs.Registry.Ingest
import CodeAtlas.Proofs.Registry.Remove

/-!
# What is shown is up to date

A settled registry has a label and an outline for every box, and shows exactly
the rows that toggles and focus ask for.  Changes leave some classes behind, and
refreshing a class settles it.
-/

namespace CodeAtlas

variable {R : Type} [Scalar R] {reg : Registry R} {state : Ingest R}

namespace Registry

/-- Every box has its label and outline and every row is shown as its class asks
for, but for the classes that are still to be refreshed. -/
structure SettledBut (reg : Registry R) (stale : List NodeId) : Prop where
  boxes : ∀ node ∈ reg.classes.items, node.id ∉ stale →
    node.headerLabel.isSome = true ∧ node.outline.isSome = true
  rows : ∀ node ∈ reg.classes.items, node.id ∉ stale →
    ∀ method ∈ reg.methods.items, method.classId = node.id →
      method.visible = method.isShown node.toggles node.focusedMethod
  standalone : ∀ node ∈ reg.standalone.items,
    node.label.isSome = true ∧ node.outline.isSome = true

/-- Nothing is left to be refreshed. -/
def Settled (reg : Registry R) : Prop :=
  reg.SettledBut []

section
omit [Scalar R]

theorem SettledBut.mono {stale more : List NodeId} (settled : reg.SettledBut stale)
    (sub : ∀ id ∈ stale, id ∈ more) :
    reg.SettledBut more :=
  ⟨fun node mem fresh => settled.boxes node mem fun old => fresh (sub _ old),
    fun node mem fresh => settled.rows node mem fun old => fresh (sub _ old), settled.standalone⟩

theorem settled_of_empty (noClasses : reg.classes.items = [])
    (noStandalone : reg.standalone.items = []) : reg.Settled := by
  constructor
  · rw [noClasses]
    intro node mem
    cases mem
  · rw [noClasses]
    intro node mem
    cases mem
  · rw [noStandalone]
    intro node mem
    cases mem

theorem settled_clear (reg : Registry R) : reg.clear.Settled :=
  settled_of_empty rfl rfl

theorem Settled.setPerspective (settled : reg.Settled)
    (perspective : Perspective) : (reg.setPerspective perspective).2.Settled := by
  unfold Registry.setPerspective
  split
  · exact settled
  · exact settled_of_empty rfl rfl

end

/-! ## Refreshing a class -/

/-- After a row is refreshed it is shown as its class asks for; the other rows
are as they were. -/
theorem mem_refreshRow {node : ClassNode R} {state : RowState R} {id : NodeId} {row : Method}
    (mem : row ∈ (reg.refreshRow node state id).methods.items) :
    (row.id ≠ id ∧ row ∈ state.methods.items) ∨
      (row.id = id ∧ row.visible = row.isShown node.toggles node.focusedMethod) := by
  unfold refreshRow at mem
  cases found : state.methods.get? id with
  | none =>
    rw [found] at mem
    have unknown := Store.get?_eq_none_iff.mp found
    exact Or.inl ⟨fun same => unknown (same ▸ Store.key_mem_keys mem), mem⟩
  | some method =>
    rw [found] at mem
    have idEq : method.id = id := Store.key_of_get? found
    dsimp only at mem
    split at mem
    · rcases Store.mem_modify.mp mem with ⟨_, _, _, rfl⟩ | ⟨old, different⟩
      · right
        unfold labelRow
        dsimp only
        split <;> exact ⟨idEq, rfl⟩
      · exact Or.inl ⟨different, old⟩
    · rcases Store.mem_modify.mp mem with ⟨_, _, _, rfl⟩ | ⟨old, different⟩
      · exact Or.inr ⟨idEq, rfl⟩
      · exact Or.inl ⟨different, old⟩

theorem mem_refreshRows {node : ClassNode R} {ids : List NodeId} {state : RowState R} {row : Method}
    (mem : row ∈ (ids.foldl (reg.refreshRow node) state).methods.items) :
    (row.id ∉ ids ∧ row ∈ state.methods.items) ∨
      (row.id ∈ ids ∧ row.visible = row.isShown node.toggles node.focusedMethod) := by
  induction ids generalizing state with
  | nil => exact Or.inl ⟨List.not_mem_nil, mem⟩
  | cons id rest ih =>
    rcases ih mem with ⟨notRest, first⟩ | ⟨inRest, shown⟩
    · rcases mem_refreshRow first with ⟨different, old⟩ | ⟨same, shown⟩
      · exact Or.inl ⟨List.not_mem_cons_of_ne_of_not_mem different notRest, old⟩
      · exact Or.inr ⟨same ▸ List.mem_cons_self, shown⟩
    · exact Or.inr ⟨List.mem_cons_of_mem _ inRest, shown⟩

theorem labelHeader_isSome (reg : Registry R) (node : ClassNode R) :
    (reg.labelHeader node).1.isSome = true := by
  unfold labelHeader
  split <;> rfl

/-- Refreshing a class settles it. -/
theorem SettledBut.refreshClass {stale : List NodeId} {classId : NodeId}
    (settled : reg.SettledBut (classId :: stale)) (coherent : reg.Coherent) :
    (reg.refreshClass classId).SettledBut stale := by
  have coherentAfter := coherent.refreshClass classId
  unfold Registry.refreshClass at coherentAfter ⊢
  cases found : reg.classes.get? classId with
  | none =>
    have unknown := Store.get?_eq_none_iff.mp found
    have fresh : ∀ node ∈ reg.classes.items, node.id ∉ stale →
        node.id ∉ classId :: stale := by
      intro node mem notStale
      have different : node.id ≠ classId := fun same => unknown (same ▸ Store.key_mem_keys mem)
      exact List.not_mem_cons_of_ne_of_not_mem different notStale
    exact ⟨fun node mem notStale => settled.boxes node mem (fresh node mem notStale),
      fun node mem notStale => settled.rows node mem (fresh node mem notStale),
      settled.standalone⟩
  | some node =>
    rw [found] at coherentAfter
    constructor
    · intro other mem notStale
      rcases Store.mem_modify.mp mem with ⟨_, _, _, rfl⟩ | ⟨old, different⟩
      · exact ⟨labelHeader_isSome reg node, rfl⟩
      · exact settled.boxes other old (List.not_mem_cons_of_ne_of_not_mem different notStale)
    · intro other mem notStale row rowMem owned
      have listed : row.id ∈ other.methods := coherentAfter.listed_of_owner rowMem mem owned.symm
      have nodeMem := Store.mem_of_get? found
      have nodeId : node.id = classId := Store.key_of_get? found
      rcases Store.mem_modify.mp mem with ⟨old, oldMem, same, rfl⟩ | ⟨otherOld, different⟩
      · have oldEq : old = node :=
          Store.eq_of_key_eq coherent.classKeys oldMem nodeMem (same.trans nodeId.symm)
        rcases mem_refreshRows rowMem with ⟨unlisted, _⟩ | ⟨_, shown⟩
        · exact absurd (oldEq ▸ listed) unlisted
        · rw [shown, oldEq]
      · rcases mem_refreshRows rowMem with ⟨_, rowOld⟩ | ⟨rowListed, _⟩
        · exact settled.rows other otherOld
            (List.not_mem_cons_of_ne_of_not_mem different notStale) row rowOld owned
        · -- A row of this class cannot be a row of another one.
          have sameClass := coherent.class_eq_of_listed otherOld nodeMem listed rowListed
          exact absurd ((congrArg ClassNode.id sameClass).trans nodeId) different
    · exact settled.standalone

theorem Settled.refreshClasses {ids : List NodeId} (settled : reg.SettledBut ids)
    (coherent : reg.Coherent) :
    (ids.foldl Registry.refreshClass reg).Settled := by
  induction ids generalizing reg with
  | nil => exact settled
  | cons id rest ih =>
    exact ih (settled.refreshClass coherent) (coherent.refreshClass id)

/-! ## Changes that leave classes behind -/

omit [Scalar R] in
/-- A map is settled but for some classes if its other classes are settled ones
of an older map, wherever they stand, with methods of the older map. -/
theorem SettledBut.of_older {reg other : Registry R} {stale more : List NodeId}
    (settled : reg.SettledBut stale)
    (classes : ∀ node ∈ other.classes.items, node.id ∉ more →
      ∃ old ∈ reg.classes.items, old.id ∉ stale ∧
        ∃ position methods, node = { old with position, methods })
    (methods : ∀ method ∈ other.methods.items, method.classId ∉ more → method ∈ reg.methods.items)
    (standalone : ∀ node ∈ other.standalone.items,
      node.label.isSome = true ∧ node.outline.isSome = true) :
    other.SettledBut more := by
  constructor
  · intro node mem fresh
    obtain ⟨old, oldMem, oldFresh, _, _, rfl⟩ := classes node mem fresh
    exact settled.boxes old oldMem oldFresh
  · intro node mem fresh method methodMem owned
    obtain ⟨old, oldMem, oldFresh, _, _, rfl⟩ := classes node mem fresh
    have methodOld := methods method methodMem (owned ▸ fresh)
    exact settled.rows old oldMem oldFresh method methodOld owned
  · exact standalone

omit [Scalar R] in
/-- Fewer classes and methods. -/
theorem SettledBut.of_subset {reg other : Registry R} {stale : List NodeId}
    (settled : reg.SettledBut stale)
    (classes : ∀ node ∈ other.classes.items, node ∈ reg.classes.items)
    (methods : ∀ method ∈ other.methods.items, method ∈ reg.methods.items)
    (standalone : ∀ node ∈ other.standalone.items, node ∈ reg.standalone.items) :
    other.SettledBut stale := by
  apply settled.of_older
  · intro node mem fresh
    exact ⟨node, classes node mem, fresh, node.position, node.methods, rfl⟩
  · exact fun method mem _ => methods method mem
  · exact fun node mem => settled.standalone node (standalone node mem)

theorem Settled.rowsChange (settled : reg.Settled) (coherent : reg.Coherent)
    {result : Bool × Registry R} (change : reg.RowsChange result) : result.2.Settled := by
  rcases change with rfl | ⟨classId, toggles, focus, focusListed, rfl⟩
  · exact settled
  · have others : (reg.reconfigure classId toggles focus).SettledBut [classId] := by
      apply settled.of_older
      · intro node mem fresh
        rcases Store.mem_modify.mp mem with ⟨old, _, same, rfl⟩ | ⟨old, _⟩
        · exact absurd (List.mem_singleton.mpr same) fresh
        · exact ⟨node, old, List.not_mem_nil, node.position, node.methods, rfl⟩
      · exact fun method mem _ => mem
      · exact settled.standalone
    exact others.refreshClass (coherent.reconfigure toggles focusListed)

omit [Scalar R] in
theorem SettledBut.moveTo {stale : List NodeId} (settled : reg.SettledBut stale) (id : NodeId)
    (position : Vec R) :
    (reg.moveTo id position).SettledBut stale := by
  unfold Registry.moveTo
  split
  · apply settled.of_older
    · intro node mem fresh
      rcases Store.mem_modify.mp mem with ⟨old, oldMem, _, rfl⟩ | ⟨old, _⟩
      · exact ⟨old, oldMem, fresh, position, old.methods, rfl⟩
      · exact ⟨node, old, fresh, node.position, node.methods, rfl⟩
    · exact fun method mem _ => mem
    · exact settled.standalone
  · apply settled.of_older
    · exact fun node mem fresh => ⟨node, mem, fresh, node.position, node.methods, rfl⟩
    · exact fun method mem _ => mem
    · intro node mem
      rcases Store.mem_modify.mp mem with ⟨old, oldMem, _, rfl⟩ | ⟨old, _⟩
      · exact settled.standalone old oldMem
      · exact settled.standalone node old

omit [Scalar R] in
theorem Settled.applyPositions (settled : reg.Settled)
    (positions : Positions R) : (reg.applyPositions positions).Settled :=
  List.foldlRecOn positions _ settled fun _ stillSettled place _ =>
    stillSettled.moveTo place.1 place.2

theorem Settled.updateEdgeGeometry (settled : reg.Settled) :
    reg.updateEdgeGeometry.Settled :=
  settled.of_subset (fun _ mem => mem) (fun _ mem => mem) fun _ mem => mem

/-! ## Removal -/

theorem Settled.deleteNode (settled : reg.Settled) (coherent : reg.Coherent)
    (id : NodeId) : (reg.deleteNode id).2.Settled := by
  rcases reg.deleteNode_cases id with ⟨node, _, deleted⟩ | ⟨method, _, found, deleted⟩ |
      ⟨node, _, _, _, deleted⟩ | ⟨_, same⟩
  · rw [deleted]
    apply settled.of_subset
    · exact fun _ mem => (Store.mem_erase.mp mem).1
    · exact fun _ mem => (Store.mem_foldl_erase.mp mem).1
    · exact fun _ mem => mem
  · rw [deleted, deleteMethod_eq]
    have others : (reg.withoutMethod method).SettledBut [method.classId] := by
      apply settled.of_older
      · intro node mem fresh
        rcases Store.mem_modify.mp mem with ⟨old, _, same, rfl⟩ | ⟨old, _⟩
        · exact absurd (List.mem_singleton.mpr same) fresh
        · exact ⟨node, old, List.not_mem_nil, node.position, node.methods, rfl⟩
      · exact fun _ mem _ => (Store.mem_erase.mp mem).1
      · exact settled.standalone
    exact others.refreshClass (coherent.withoutMethod (Store.mem_of_get? found))
  · rw [deleted]
    apply settled.of_subset
    · exact fun _ mem => mem
    · exact fun _ mem => mem
    · exact fun _ mem => (Store.mem_erase.mp mem).1
  · rw [same]
    exact settled

theorem Settled.focusOnClass (settled : reg.Settled) (coherent : reg.Coherent) (classId : NodeId) :
    (reg.focusOnClass classId).2.Settled := by
  apply (coherent.focusOnClass_induction classId (motive := Settled) settled _ _).2
  · exact settled.of_subset (fun _ mem => mem) (fun _ mem => mem) fun _ mem => mem
  · exact fun left coherentLeft held id _ => held.deleteNode coherentLeft id

/-! ## Taking in data -/

theorem SettledBut.technicalNode (settled : state.registry.SettledBut state.touched) (node : Node) :
    (state.technicalNode node).registry.SettledBut (state.technicalNode node).touched := by
  rcases Ingest.technicalNode_cases state node with same | ⟨new, _, added⟩ | ⟨_, _, added⟩
  · rw [same]
    exact settled
  · rw [added]
    apply settled.of_older
    · intro other mem fresh
      rw [List.mem_append, not_or] at fresh
      rcases (Store.mem_insert_of_new (Ingest.not_mem_keys_of_new new).1).mp mem with old | rfl
      · exact ⟨other, old, fresh.1, other.position, other.methods, rfl⟩
      · exact absurd (List.mem_singleton.mpr rfl) fresh.2
    · exact fun _ mem _ => mem
    · exact settled.standalone
  · rw [added]
    exact settled

omit [Scalar R] in
theorem SettledBut.claimMethod (settled : state.registry.SettledBut state.touched)
    (ready : state.Ready) (link : Relationship) :
    (state.claimMethod link).registry.SettledBut
      (state.claimMethod link).touched := by
  rcases Ingest.claimMethod_cases state link with same | ⟨node, _, _, found, claimed⟩
  · rw [same]
    exact settled
  · rw [claimed]
    have new : node.id ∉ state.registry.methods.keys :=
      ready.pending node (Store.mem_of_get? found)
    apply settled.of_older
    · intro other mem fresh
      rw [List.mem_append, not_or] at fresh
      rcases Store.mem_modify.mp mem with ⟨old, oldMem, _, rfl⟩ | ⟨old, _⟩
      · exact ⟨old, oldMem, fresh.1, old.position, _, rfl⟩
      · exact ⟨other, old, fresh.1, other.position, other.methods, rfl⟩
    · intro method mem fresh
      rw [List.mem_append, not_or] at fresh
      rcases (Store.mem_insert_of_new new).mp mem with old | rfl
      · exact old
      · exact absurd (List.mem_singleton.mpr rfl) fresh.2
    · exact settled.standalone

theorem Settled.architectureNode (settled : state.registry.Settled)
    (node : Node) : (state.architectureNode node).registry.Settled := by
  rcases Ingest.architectureNode_cases state node with
    same | ⟨item, _, _, new, _, itemId, label, outline, added⟩
  · rw [same]
    exact settled
  · rw [added]
    have itemNew : item.id ∉ state.registry.standalone.keys :=
      itemId ▸ (Ingest.not_mem_keys_of_new new).2.2
    constructor
    · exact settled.boxes
    · exact settled.rows
    · intro other mem
      rcases (Store.mem_insert_of_new itemNew).mp mem with old | rfl
      · exact settled.standalone other old
      · rw [label, outline]
        exact ⟨rfl, rfl⟩

omit [Scalar R] in
theorem Settled.edge (settled : state.registry.Settled)
    (link : Relationship) : (state.edge link).registry.Settled := by
  rcases Ingest.edge_cases state link with ⟨_, same⟩ | ⟨_, _, _, _, added⟩
  · rw [same]
    exact settled
  · rw [added]
    exact settled.of_subset (fun _ mem => mem) (fun _ mem => mem) fun _ mem => mem

theorem Settled.withNodes (settled : reg.Settled) (coherent : reg.Coherent)
    (nodes : List Node) (links : List Relationship) :
    (reg.withNodes nodes links).registry.Settled := by
  unfold Registry.withNodes
  cases perspective : reg.perspective with
  | technical =>
    have ready : Ingest.Ready { registry := reg } := ⟨coherent, perspective, by simp⟩
    have claimed := ready.claims_induction nodes links
      (motive := fun (state : Ingest R) => state.registry.SettledBut state.touched) settled
      (fun _ _ held node _ => held.technicalNode node)
      fun _ stillReady held link => held.claimMethod stillReady link
    apply Settled.refreshClasses (claimed.2.mono _) claimed.1.coherent
    intro id mem
    rw [List.mem_eraseDups, List.mem_mergeSort]
    exact mem
  | architecture =>
    exact List.foldlRecOn (motive := fun (state : Ingest R) => state.registry.Settled) nodes
      Ingest.architectureNode settled fun _ held node _ => held.architectureNode node

theorem Settled.addData (settled : reg.Settled) (coherent : reg.Coherent)
    (nodes : List Node) (links : List Relationship) :
    (reg.addData nodes links).2.Settled :=
  List.foldlRecOn (motive := fun (state : Ingest R) => state.registry.Settled) links
    Ingest.edge (settled.withNodes coherent nodes links)
    fun _ held link _ => held.edge link

end Registry

end CodeAtlas
