import CodeAtlas.Proofs.Registry.Kinds
import CodeAtlas.Proofs.Registry.Shown

/-!
# Selections that are on the map

What is selected stays on the map while data comes in.  When something goes, the
selection forgets it and everything that goes with it, and nothing more needs to
be forgotten as long as every id has one meaning.
-/

namespace CodeAtlas

variable {R : Type} [Scalar R] {reg : Registry R} {state : Interaction}

namespace Registry

/-- A method whose row has a place is stored and visible. -/
theorem visible_of_methodRowRect {id : NodeId} (placed : (reg.methodRowRect id).isSome = true) :
    ∃ method ∈ reg.methods.items, method.id = id ∧ method.visible = true := by
  unfold methodRowRect at placed
  cases found : reg.methods.get? id with
  | none => simp [found] at placed
  | some method =>
    cases visible : method.visible with
    | false => simp [found, visible] at placed
    | true => exact ⟨method, Store.mem_of_get? found, Store.key_of_get? found, visible⟩

/-- Focusing on a class keeps the class. -/
theorem Coherent.mem_classes_focusOnClass (coherent : reg.Coherent) {classId : NodeId}
    (known : classId ∈ reg.classes.keys) :
    classId ∈ (reg.focusOnClass classId).2.classes.keys :=
  (coherent.focusOnClass_induction classId
    (motive := fun (left : Registry R) => classId ∈ left.classes.keys) known known
    fun _ coherentLeft held _ different =>
      (boxes_deleteNode coherentLeft different.symm).1 held).2

end Registry

namespace Interaction

/-- What is selected is on the map; a selected method is in sight and belongs to
the selected class. -/
structure OnMap (state : Interaction) (reg : Registry R) : Prop where
  selectedClass : ∀ id ∈ state.selectedClass, id ∈ reg.classes.keys
  selectedMethod : ∀ id ∈ state.selectedMethod,
    ∃ classId ∈ state.selectedClass, reg.Shows classId id
  selectedNode : ∀ id ∈ state.selectedNode, id ∈ reg.standalone.keys

section
omit [Scalar R]

theorem onMap_empty (reg : Registry R) : ({} : Interaction).OnMap reg :=
  ⟨nofun, nofun, nofun⟩

theorem OnMap.withoutCall
    (onMap : state.OnMap reg) : { state with selectedCall := none }.OnMap reg :=
  ⟨onMap.selectedClass, onMap.selectedMethod, onMap.selectedNode⟩

theorem OnMap.of_grows {reg grown : Registry R} (onMap : state.OnMap reg)
    (coherent : reg.Coherent) (settled : reg.Settled) (grownSettled : grown.Settled)
    (grows : reg.Grows grown) : state.OnMap grown := by
  constructor
  · intro id selected
    obtain ⟨node, mem, rfl⟩ := Store.mem_keys_iff.mp (onMap.selectedClass id selected)
    obtain ⟨kept, keptMem, keptId, _⟩ := grows.classes node mem
    exact Store.mem_keys_iff.mpr ⟨kept, keptMem, keptId⟩
  · intro id selected
    obtain ⟨classId, classSelected, shown⟩ := onMap.selectedMethod id selected
    exact ⟨classId, classSelected, shown.of_grows coherent settled grownSettled grows⟩
  · intro id selected
    obtain ⟨node, mem, rfl⟩ := Store.mem_keys_iff.mp (onMap.selectedNode id selected)
    obtain ⟨kept, keptMem, keptId⟩ := grows.standalone node mem
    exact Store.mem_keys_iff.mpr ⟨kept, keptMem, keptId⟩

end

/-! ## Selecting -/

section
omit [Scalar R]

theorem OnMap.selectClass (onMap : state.OnMap reg) {id : NodeId} (known : id ∈ reg.classes.keys) :
    (state.selectClass id).OnMap reg := by
  constructor
  · intro other selected
    cases selected
    exact known
  · intro method selected
    unfold Interaction.selectClass at selected
    by_cases same : state.selectedClass = some id
    · rw [if_pos same] at selected
      obtain ⟨classId, classSelected, shown⟩ := onMap.selectedMethod method selected
      rw [same] at classSelected
      exact ⟨classId, classSelected, shown⟩
    · rw [if_neg same] at selected
      cases selected
  · exact onMap.selectedNode

/-- Selecting a row selects its class first. -/
theorem OnMap.selectRow (onMap : state.OnMap reg) (coherent : reg.Coherent)
    {classId id : NodeId} (shown : reg.Shows classId id) :
    ((state.selectClass classId).selectMethod id).OnMap reg := by
  have known : classId ∈ reg.classes.keys := by
    obtain ⟨method, methodMem, _, ownerId, _⟩ := shown
    obtain ⟨owner, ownerMem, sameOwner, _⟩ := coherent.owner method methodMem
    exact Store.mem_keys_iff.mpr ⟨owner, ownerMem, sameOwner.trans ownerId⟩
  constructor
  · exact (onMap.selectClass known).selectedClass
  · intro other selected
    cases selected
    exact ⟨classId, rfl, shown⟩
  · exact onMap.selectedNode

theorem OnMap.selectNode (onMap : state.OnMap reg) {id : NodeId}
    (known : id ∈ reg.standalone.keys) :
    (state.selectNode id).OnMap reg := by
  constructor
  · exact onMap.selectedClass
  · exact onMap.selectedMethod
  · intro other selected
    cases selected
    exact known

end

/-! ## Forgetting -/

/-- What is left selected after some ids are forgotten. -/
theorem mem_foldl_forget (ids : List NodeId) (state : Interaction) (id : NodeId) :
    (id ∈ (ids.foldl forget state).selectedClass ↔ id ∈ state.selectedClass ∧ id ∉ ids) ∧
      (id ∈ (ids.foldl forget state).selectedMethod ↔ id ∈ state.selectedMethod ∧ id ∉ ids) ∧
      (id ∈ (ids.foldl forget state).selectedNode ↔ id ∈ state.selectedNode ∧ id ∉ ids) := by
  induction ids generalizing state with
  | nil => simp
  | cons first rest ih =>
    obtain ⟨classes, methods, nodes⟩ := ih (state.forget first)
    rw [List.foldl_cons, classes, methods, nodes]
    simp [forget, and_assoc]

theorem selectedCall_foldl_forget (ids : List NodeId) (state : Interaction) :
    (ids.foldl forget state).selectedCall = state.selectedCall := by
  induction ids generalizing state with
  | nil => rfl
  | cons first rest ih => exact ih (state.forget first)

/-- Forgetting what is removed, the methods of a removed class included, leaves
only what is still on the map. -/
theorem OnMap.deleteNode (onMap : state.OnMap reg) (orderly : reg.Orderly) (id : NodeId) :
    (((reg.methodsOf id).map Method.id).foldl forget (state.forget id)).OnMap
      (reg.deleteNode id).2 := by
  let gone := id :: (reg.methodsOf id).map Method.id
  change (gone.foldl forget state).OnMap (reg.deleteNode id).2
  have left := mem_foldl_forget gone state
  constructor
  · intro classId selected
    obtain ⟨selectedBefore, kept⟩ := (left classId).1.mp selected
    exact (Registry.boxes_deleteNode orderly.coherent (List.ne_of_not_mem_cons kept)).1
      (onMap.selectedClass classId selectedBefore)
  · intro methodId selected
    obtain ⟨selectedBefore, kept⟩ := (left methodId).2.1.mp selected
    have different : methodId ≠ id := List.ne_of_not_mem_cons kept
    have notOwned := List.not_mem_of_not_mem_cons kept
    obtain ⟨classId, classSelected, shown⟩ := onMap.selectedMethod methodId selectedBefore
    -- The class is not among what goes: with it the method would go, and no
    -- method that goes has the id of a class.
    have classKept : classId ∉ gone := by
      intro classGone
      rcases List.mem_cons.mp classGone with rfl | owned
      · obtain ⟨method, methodMem, rfl, ownerId, _⟩ := shown
        apply notOwned
        exact List.mem_map.mpr
          ⟨method, orderly.coherent.mem_methodsOf_iff.mpr ⟨methodMem, ownerId⟩, rfl⟩
      · obtain ⟨method, listed, rfl⟩ := List.mem_map.mp owned
        exact orderly.unambiguous _ (onMap.selectedClass _ classSelected)
          (Store.key_mem_keys (orderly.coherent.mem_methodsOf_iff.mp listed).1)
    exact ⟨classId, (left classId).1.mpr ⟨classSelected, classKept⟩,
      shown.deleteNode orderly.coherent orderly.settled different notOwned⟩
  · intro nodeId selected
    obtain ⟨selectedBefore, kept⟩ := (left nodeId).2.2.mp selected
    exact (Registry.boxes_deleteNode orderly.coherent (List.ne_of_not_mem_cons kept)).2
      (onMap.selectedNode nodeId selectedBefore)

/-- A method that is out of sight after a change of rows is not selected any
more; the rest of the selection stays. -/
theorem OnMap.rowsChange {reg shown : Registry R} (onMap : state.OnMap reg)
    (coherent : shown.Coherent) (classes : shown.classes.keys = reg.classes.keys)
    (methods : shown.bare.methods = reg.bare.methods)
    (standalone : shown.bare.standalone = reg.bare.standalone) :
    { state with selectedMethod := state.selectedMethod.filter fun id =>
        (shown.methodRowRect id).isSome }.OnMap shown := by
  constructor
  · rw [classes]
    exact onMap.selectedClass
  · intro id selected
    obtain ⟨selectedBefore, placed⟩ := Option.mem_filter_iff.mp selected
    obtain ⟨method, methodMem, rfl, visible⟩ := Registry.visible_of_methodRowRect placed
    obtain ⟨classId, classSelected, old, oldMem, oldId, rfl, _⟩ :=
      onMap.selectedMethod method.id selectedBefore
    have oldBare : old.bare ∈ shown.methods.items.map Method.bare := by
      have items := congrArg Store.items methods
      change shown.methods.items.map Method.bare = reg.methods.items.map Method.bare at items
      rw [items]
      exact List.mem_map.mpr ⟨old, oldMem, rfl⟩
    obtain ⟨kept, keptMem, keptBare⟩ := List.mem_map.mp oldBare
    have keptId : kept.bare.id = old.bare.id := congrArg Method.id keptBare
    have keptOwner : kept.bare.classId = old.bare.classId := congrArg Method.classId keptBare
    have same : kept = method :=
      Store.eq_of_key_eq coherent.methodKeys keptMem methodMem (keptId.trans oldId)
    exact ⟨old.classId, classSelected, method, methodMem, rfl, same ▸ keptOwner, visible⟩
  · rw [← Registry.keys_bare_standalone, standalone, Registry.keys_bare_standalone]
    exact onMap.selectedNode

end Interaction

end CodeAtlas
