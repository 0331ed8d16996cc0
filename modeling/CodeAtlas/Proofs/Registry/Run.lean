import CodeAtlas.Proofs.Registry.Ingest
import CodeAtlas.Proofs.Registry.Remove

/-!
# Runs of a registry

Whatever is asked of a registry, in whatever order and with whatever batches, its
stores keep agreeing with each other.
-/

namespace CodeAtlas

variable {R : Type} [Scalar R] {reg : Registry R}

namespace Registry

/-- What can be asked of a registry. -/
inductive Operation (R : Type) where
  | setPerspective (perspective : Perspective)
  | setData (nodes : List Node) (links : List Relationship)
  | addData (nodes : List Node) (links : List Relationship)
  | deleteNode (id : NodeId)
  | clear
  | focusOnClass (classId : NodeId)
  | setToggle (classId : NodeId) (toggle : Toggle) (enabled : Bool)
  | flipToggle (classId : NodeId) (toggle : Toggle)
  | focusMethod (methodId : NodeId)
  | restoreMethods (classId : NodeId)
  | applyPositions (positions : Positions R)
  | updateEdgeGeometry

/-- The registry after an operation. -/
def apply (reg : Registry R) : Operation R → Registry R
  | .setPerspective perspective => (reg.setPerspective perspective).2
  | .setData nodes links => (reg.setData nodes links).2
  | .addData nodes links => (reg.addData nodes links).2
  | .deleteNode id => (reg.deleteNode id).2
  | .clear => reg.clear
  | .focusOnClass classId => (reg.focusOnClass classId).2
  | .setToggle classId toggle enabled => (reg.setToggle classId toggle enabled).2
  | .flipToggle classId toggle => (reg.flipToggle classId toggle).2
  | .focusMethod methodId => (reg.focusMethod methodId).2
  | .restoreMethods classId => (reg.restoreMethods classId).2
  | .applyPositions positions => reg.applyPositions positions
  | .updateEdgeGeometry => reg.updateEdgeGeometry

/-- Whether an operation can let go of resources that are lent. -/
def Operation.empties : Operation R → Bool
  | .setPerspective _ | .setData _ _ | .clear => true
  | _ => false

/-- Whether an operation is about toggles or focus. -/
def Operation.isRows : Operation R → Bool
  | .setToggle .. | .flipToggle .. | .focusMethod _ | .restoreMethods _ => true
  | _ => false

theorem Coherent.rowsChange_apply (coherent : reg.Coherent) {operation : Operation R}
    (rows : operation.isRows = true) :
    ∃ changed, reg.RowsChange (changed, reg.apply operation) := by
  cases operation with
  | setToggle classId toggle enabled =>
    exact ⟨_, rowsChange_setToggle coherent classId toggle enabled⟩
  | flipToggle classId toggle => exact ⟨_, rowsChange_flipToggle coherent classId toggle⟩
  | focusMethod methodId => exact ⟨_, rowsChange_focusMethod coherent methodId⟩
  | restoreMethods classId => exact ⟨_, rowsChange_restoreMethods reg classId⟩
  | _ => cases rows

/-- The registry after operations, the first one first. -/
def run (reg : Registry R) (operations : List (Operation R)) : Registry R :=
  operations.foldl apply reg

/-- Every operation keeps a registry coherent. -/
theorem Coherent.apply (coherent : reg.Coherent)
    (operation : Operation R) : (reg.apply operation).Coherent := by
  by_cases rows : operation.isRows = true
  · rcases coherent.rowsChange_apply rows with ⟨_, change⟩
    exact coherent.rowsChange change
  cases operation with
  | setPerspective perspective => exact coherent.setPerspective perspective
  | setData nodes links => exact coherent_setData reg nodes links
  | addData nodes links => exact coherent.addData nodes links
  | deleteNode id => exact coherent.deleteNode id
  | clear => exact coherent_clear reg
  | focusOnClass classId => exact coherent.focusOnClass classId
  | applyPositions positions => exact coherent.applyPositions positions
  | updateEdgeGeometry => exact coherent.updateEdgeGeometry
  | _ => exact absurd rfl rows

theorem Coherent.run (coherent : reg.Coherent)
    (operations : List (Operation R)) : (reg.run operations).Coherent :=
  List.foldlRecOn operations Registry.apply coherent
    fun _ held operation _ => held.apply operation

omit [Scalar R] in
/-- The owner that a stored method names is stored and lists the method once. -/
theorem Coherent.owner_of_get? (coherent : reg.Coherent) {id : NodeId} {method : Method}
    (found : reg.methods.get? id = some method) :
    ∃ owner, reg.classes.get? method.classId = some owner ∧ owner.methods.count id = 1 := by
  obtain ⟨owner, ownerMem, ownerId, listed⟩ := coherent.owner method (Store.mem_of_get? found)
  have idEq : method.id = id := Store.key_of_get? found
  refine ⟨owner, (Store.get?_eq_some_iff coherent.classKeys).mpr ⟨ownerMem, ownerId⟩, ?_⟩
  exact List.count_eq_one_of_mem (coherent.rows owner ownerMem) (idEq ▸ listed)

omit [Scalar R] in
/-- A row of a stored class is a stored method that names the class as its
owner. -/
theorem Coherent.member_of_get? (coherent : reg.Coherent) {classId : NodeId}
    {node : ClassNode R} (found : reg.classes.get? classId = some node) {id : NodeId}
    (listed : id ∈ node.methods) :
    ∃ method, reg.methods.get? id = some method ∧ method.classId = classId := by
  obtain ⟨method, methodMem, methodId, ownerId⟩ :=
    coherent.member node (Store.mem_of_get? found) id listed
  have idEq : node.id = classId := Store.key_of_get? found
  exact ⟨method, (Store.get?_eq_some_iff coherent.methodKeys).mpr ⟨methodMem, methodId⟩,
    ownerId.trans idEq⟩

end Registry

end CodeAtlas
