import CodeAtlas.Proofs.Engine.Scene
import CodeAtlas.Proofs.PoolHistory
import CodeAtlas.Proofs.Registry.Pictures

/-!
# What operations do to the pool

Every operation, of a registry or of a diagram, changes the pool by actions:
resources are allocated, redrawn and released one by one, or all let go at once.
Nothing else happens to a pool.
-/

namespace CodeAtlas

variable {R : Type} [Scalar R] {reg : Registry R} {engine next : Engine R}

namespace Registry

/-! ## Rows and lines -/

theorem becomes_refreshClass (reg : Registry R) (classId : NodeId) :
    reg.pool.Becomes (reg.refreshClass classId).pool := by
  cases found : reg.classes.get? classId with
  | none =>
    rw [refreshClass, found]
    exact Pool.Becomes.refl _
  | some node =>
    rw [refreshClass_of_get? found]
    have labelled := (reg.evolves_labelHeader node).trans
      (reg.evolves_refreshedRows node)
    exact labelled.becomes.trans (reg.evolves_redrawnOutline node).becomes

theorem becomes_refreshClasses (reg : Registry R) (ids : List NodeId) :
    reg.pool.Becomes (ids.foldl refreshClass reg).pool :=
  List.foldlRecOn (motive := fun (reached : Registry R) => reg.pool.Becomes reached.pool) ids
    refreshClass (Pool.Becomes.refl _) fun reached before id _ =>
      before.trans (reached.becomes_refreshClass id)

theorem becomes_rowsChange {result : Bool × Registry R}
    (change : reg.RowsChange result) : reg.pool.Becomes result.2.pool := by
  rcases change with rfl | ⟨classId, toggles, focus, _, rfl⟩
  · exact Pool.Becomes.refl _
  · exact becomes_refreshClass (reg.reconfigure classId toggles focus) classId

omit [Scalar R] in
theorem pool_applyPositions (reg : Registry R) (positions : Positions R) :
    (reg.applyPositions positions).pool = reg.pool := by
  apply List.foldlRecOn (motive := fun (moved : Registry R) => moved.pool = reg.pool)
  · rfl
  · rintro moved same ⟨id, position⟩ _
    rw [← same]
    change (moved.moveTo id position).pool = moved.pool
    unfold moveTo
    split <;> rfl

/-! ## Batches -/

theorem Coherent.becomes_addData (coherent : reg.Coherent) (nodes : List Node)
    (links : List Relationship) :
    reg.pool.Becomes (reg.addData nodes links).2.pool := by
  apply coherent.withData_induction (motive := fun (state : Ingest R) =>
    reg.pool.Becomes state.registry.pool)
  · exact Pool.Becomes.refl _
  · intro state _ becomes node _
    rcases Ingest.technicalNode_cases state node with same | ⟨_, _, added⟩ | ⟨_, _, added⟩
    · rw [same]
      exact becomes
    · rw [added]
      exact becomes
    · rw [added]
      exact becomes
  · intro state _ becomes link
    rcases Ingest.claimMethod_cases state link with same | ⟨_, _, _, _, claimed⟩
    · rw [same]
      exact becomes
    · rw [claimed]
      exact becomes
  · intro state _ becomes
    exact becomes.trans (becomes_refreshClasses state.registry _)
  · intro state _ becomes node
    rcases Ingest.architectureNode_cases state node with same | ⟨_, _, _, _, _, _, _, _, added⟩
    · rw [same]
      exact becomes
    · rw [added]
      apply (becomes.trans (Pool.becomes_act _ (.allocate _))).trans
      exact Pool.becomes_act _ (.allocate _)
  · intro state becomes link
    rcases Ingest.edge_cases state link with ⟨_, same⟩ | ⟨_, _, _, _, added⟩
    · rw [same]
      exact becomes
    · rw [added]
      exact becomes

/-! ## Removal -/

omit [Scalar R] in
theorem becomes_clear (reg : Registry R) : reg.pool.Becomes reg.clear.pool :=
  Pool.becomes_act reg.pool .clear

omit [Scalar R] in
theorem becomes_setPerspective (reg : Registry R) (perspective : Perspective) :
    reg.pool.Becomes (reg.setPerspective perspective).2.pool := by
  unfold setPerspective
  split
  · exact Pool.Becomes.refl _
  · exact reg.becomes_clear

theorem becomes_deleteNode (reg : Registry R) (id : NodeId) :
    reg.pool.Becomes (reg.deleteNode id).2.pool := by
  rcases reg.deleteNode_cases id with ⟨node, _, deleted⟩ | ⟨method, _, _, deleted⟩ |
      ⟨node, _, _, _, deleted⟩ | ⟨_, same⟩
  · rw [deleted]
    exact (reg.evolves_deleteClass node).becomes
  · rw [deleted, deleteMethod_eq]
    exact (reg.evolves_withoutMethod method).becomes.trans (becomes_refreshClass _ _)
  · rw [deleted]
    exact (reg.evolves_deleteStandalone node).becomes
  · rw [same]
    exact Pool.Becomes.refl _

theorem Coherent.becomes_focusOnClass (coherent : reg.Coherent)
    (classId : NodeId) : reg.pool.Becomes (reg.focusOnClass classId).2.pool :=
  (coherent.focusOnClass_induction classId
    (motive := fun left => reg.pool.Becomes left.pool) (Pool.Becomes.refl _)
    (reg.evolves_removeEdges _).becomes
    fun left _ becomes id _ => becomes.trans (left.becomes_deleteNode id)).2

/-- Every operation changes the pool by actions. -/
theorem Coherent.becomes_apply (coherent : reg.Coherent)
    (operation : Operation R) : reg.pool.Becomes (reg.apply operation).pool := by
  by_cases rows : operation.isRows = true
  · rcases coherent.rowsChange_apply rows with ⟨_, change⟩
    exact becomes_rowsChange change
  cases operation with
  | setPerspective perspective => exact reg.becomes_setPerspective perspective
  | setData nodes links =>
    exact reg.becomes_clear.trans
      ((coherent_clear reg).becomes_addData nodes links)
  | addData nodes links => exact coherent.becomes_addData nodes links
  | deleteNode id => exact reg.becomes_deleteNode id
  | clear => exact reg.becomes_clear
  | focusOnClass classId => exact coherent.becomes_focusOnClass classId
  | applyPositions positions =>
    rw [Registry.apply, pool_applyPositions]
    exact Pool.Becomes.refl _
  | updateEdgeGeometry => exact reg.evolves_updateEdgeGeometry.becomes
  | _ => exact absurd rfl rows

end Registry

/-! ## Diagrams -/

namespace Engine

omit [Scalar R] in
theorem becomes_leaveSequence (engine : Engine R) :
    engine.registry.pool.Becomes engine.leaveSequence.2.registry.pool := by
  unfold leaveSequence
  cases engine.mode with
  | graph => exact Pool.Becomes.refl _
  | sequence view =>
    have released : engine.registry.pool.Evolves (view.release engine.registry.pool) [] :=
      Pool.evolves_releaseAll _ _
    exact released.becomes

theorem becomes_relayout (engine : Engine R) :
    engine.registry.pool.Becomes engine.relayout.registry.pool := by
  unfold relayout
  dsimp only
  split
  · exact Pool.Becomes.refl _
  · let moved := engine.registry.applyPositions
      (engine.layouter engine.registry.layoutNodes engine.registry.layoutEdges)
    have routed := moved.evolves_updateEdgeGeometry.becomes
    rw [Registry.pool_applyPositions] at routed
    exact routed

/-- Every operation of a diagram changes the pool by actions. -/
theorem becomes_apply (coherent : engine.registry.Coherent) {operation : Operation R}
    (applied : engine.apply operation = .ok next) :
    engine.pool.Becomes next.pool := by
  have left := engine.becomes_leaveSequence
  have leftCoherent : engine.leaveSequence.2.registry.Coherent :=
    coherent.of_bare_eq (bare_leaveSequence engine)
  unfold pool
  cases mapStep_of_apply coherent applied with
  | kept same =>
    rw [same.registry]
    exact Pool.Becomes.refl _
  | left same =>
    rw [same.registry]
    exact left
  | shown root built same =>
    rw [same.registry]
    exact left.trans (SequenceView.evolves_build built).becomes
  | emptied operation same _ =>
    rw [same.registry]
    exact left.trans (leftCoherent.becomes_apply operation)
  | relaid same =>
    rw [same.registry]
    exact engine.becomes_relayout
  | replaced nodes links same =>
    rw [same.registry]
    apply Pool.Becomes.trans _ (becomes_relayout _)
    exact left.trans (leftCoherent.becomes_apply (.setData nodes links))
  | changed operation _ same =>
    rw [same.registry]
    apply Pool.Becomes.trans _ (becomes_relayout _)
    apply Pool.Becomes.trans _ (becomes_leaveSequence _)
    exact coherent.becomes_apply operation

end Engine

end CodeAtlas
