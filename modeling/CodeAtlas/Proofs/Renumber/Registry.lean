import CodeAtlas.Proofs.Registry.Pictures
import CodeAtlas.Proofs.Renumber.Basic

/-!
# Renumbered maps change alike

Rows are refreshed, batches are taken in, boxes are moved and edges are routed
without regard to the numbers of resources: on a renumbered map each of these
gives the renumbered result.
-/

namespace CodeAtlas

variable {R : Type} [Scalar R] {f : ResourceId → ResourceId}

def RowState.renumber (f : ResourceId → ResourceId) (state : RowState R) : RowState R :=
  { state with
    methods := state.methods.map (.renumber f)
    pool := state.pool.renumber f }

def Ingest.renumber (f : ResourceId → ResourceId) (state : Ingest R) : Ingest R :=
  { state with registry := state.registry.renumber f }

namespace Registry

/-! ## Rows -/

/-- The text that the row of a method should show. -/
def rowOf (node : ClassNode R) (method : Method) : String :=
  method.rowText node.name node.toggles.showArguments

theorem labelRow_eq (reg : Registry R) (node : ClassNode R) (pool : Pool R) (method : Method) :
    reg.labelRow node pool method =
      if (method.label.isNone || method.labelText != rowOf node method) = true then
        let labelled := (pool.releaseSlot method.label).allocate
          (reg.nameplate (rowOf node method))
        ({ method with label := some labelled.1, labelText := rowOf node method }, labelled.2)
      else (method, pool) :=
  rfl

theorem labelRow_renumber (shifts : Shifts f) (reg : Registry R) (node : ClassNode R)
    (pool : Pool R) (method : Method) :
    (reg.renumber f).labelRow (node.renumber f) (pool.renumber f) (method.renumber f) =
      ((reg.labelRow node pool method).1.renumber f,
        (reg.labelRow node pool method).2.renumber f) := by
  have unlabelled : (method.renumber f).label.isNone = method.label.isNone := Option.isNone_map
  have row : rowOf (node.renumber f) (method.renumber f) = rowOf node method := rfl
  have text : (method.renumber f).labelText = method.labelText := rfl
  have plate : (reg.renumber f).nameplate = reg.nameplate := rfl
  have released : (pool.renumber f).releaseSlot (method.renumber f).label =
      (pool.releaseSlot method.label).renumber f :=
    Pool.releaseSlot_renumber shifts pool method.label
  rw [labelRow_eq, labelRow_eq, unlabelled, row, text, plate, released,
    Pool.allocate_renumber shifts]
  split <;> rfl

/-- A method with its row shown or hidden as its class asks for. -/
def rowIn (node : ClassNode R) (method : Method) : Method :=
  { method with visible := method.isShown node.toggles node.focusedMethod }

theorem refreshRow_eq_of_get? {reg : Registry R} {node : ClassNode R} {state : RowState R}
    {id : NodeId} {method : Method} (found : state.methods.get? id = some method) :
    reg.refreshRow node state id =
      if (rowIn node method).visible = true then
        let labelled := reg.labelRow node state.pool (rowIn node method)
        { methods := state.methods.modify id fun _ => labelled.1
          pool := labelled.2
          width := Scalar.max state.width
            (reg.metrics.textWidth reg.text labelled.1.labelText)
          visibleRows := state.visibleRows + 1 }
      else { state with methods := state.methods.modify id fun _ => rowIn node method } := by
  rw [refreshRow, found]
  rfl

section

variable (shifts : Shifts f) (reg : Registry R) (node : ClassNode R)
include shifts

theorem refreshRow_renumber (state : RowState R) (id : NodeId) :
    (reg.renumber f).refreshRow (node.renumber f) (state.renumber f) id =
      (reg.refreshRow node state id).renumber f := by
  have lookup : (state.renumber f).methods.get? id =
      (state.methods.get? id).map (Method.renumber f) :=
    Store.get?_map Method.key_renumber state.methods id
  have replaced : ∀ method : Method,
      (state.renumber f).methods.modify id (fun _ => method.renumber f) =
        (state.methods.modify id fun _ => method).map (Method.renumber f) :=
    fun method => Store.modify_map Method.key_renumber state.methods id fun _ => rfl
  cases found : state.methods.get? id with
  | none =>
    rw [found] at lookup
    rw [refreshRow, refreshRow, lookup, found]
    rfl
  | some method =>
    rw [found] at lookup
    have row : rowIn (node.renumber f) (method.renumber f) = (rowIn node method).renumber f := rfl
    have labelled : (reg.renumber f).labelRow (node.renumber f) (state.renumber f).pool
        ((rowIn node method).renumber f) = _ :=
      labelRow_renumber shifts reg node state.pool (rowIn node method)
    rw [refreshRow_eq_of_get? found, refreshRow_eq_of_get? lookup, row, labelled]
    dsimp only
    rw [replaced, replaced]
    by_cases visible : (rowIn node method).visible = true
    · rw [if_pos visible]
      exact if_pos visible
    · rw [if_neg visible]
      exact if_neg visible

theorem labelHeader_renumber :
    (reg.renumber f).labelHeader (node.renumber f) =
      ((reg.labelHeader node).1.map f, (reg.labelHeader node).2.renumber f) := by
  have header : (node.renumber f).headerLabel = node.headerLabel.map f := rfl
  unfold labelHeader
  rw [header]
  cases node.headerLabel with
  | some label => rfl
  | none =>
    have allocated := Pool.allocate_renumber shifts reg.pool
      (reg.nameplate node.headerText)
    exact congrArg (fun labelled : ResourceId × Pool R => (some labelled.1, labelled.2)) allocated

theorem refreshedRows_renumber :
    (reg.renumber f).refreshedRows (node.renumber f) =
      (reg.refreshedRows node).renumber f := by
  have start : (reg.renumber f).rowsStart (node.renumber f) =
      (reg.rowsStart node).renumber f := by
    rw [rowsStart, labelHeader_renumber shifts]
    rfl
  rw [refreshedRows, start]
  exact List.foldl_hom (RowState.renumber f) fun state id =>
    refreshRow_renumber shifts reg node state id

theorem refreshedSize_renumber :
    (reg.renumber f).refreshedSize (node.renumber f) = reg.refreshedSize node := by
  rw [refreshedSize, refreshedRows_renumber shifts]
  rfl

theorem redrawnOutline_renumber :
    (reg.renumber f).redrawnOutline (node.renumber f) =
      (f (reg.redrawnOutline node).1, (reg.redrawnOutline node).2.renumber f) := by
  rw [redrawnOutline, refreshedRows_renumber shifts, refreshedSize_renumber shifts]
  exact Pool.upsertShape_renumber shifts (reg.refreshedRows node).pool node.outline _

end

theorem refreshClass_renumber (shifts : Shifts f) (reg : Registry R) (classId : NodeId) :
    (reg.renumber f).refreshClass classId = (reg.refreshClass classId).renumber f := by
  cases found : reg.classes.get? classId with
  | none =>
    have lookup : (reg.renumber f).classes.get? classId = none := by simp [found]
    rw [refreshClass, refreshClass, lookup, found]
  | some node =>
    have lookup : (reg.renumber f).classes.get? classId = some (node.renumber f) := by
      simp [found]
    have classes : (reg.renumber f).classes.modify classId (fun old =>
        { old with
          headerLabel := (reg.labelHeader node).1.map f
          size := reg.refreshedSize node
          outline := some (f (reg.redrawnOutline node).1) }) =
          (reg.classes.modify classId fun old =>
            { old with
              headerLabel := (reg.labelHeader node).1
              size := reg.refreshedSize node
              outline := some (reg.redrawnOutline node).1 }).map (ClassNode.renumber f) :=
      Store.modify_map ClassNode.key_renumber reg.classes classId fun _ => rfl
    rw [refreshClass_of_get? found, refreshClass_of_get? lookup, refreshedRows_renumber shifts,
      redrawnOutline_renumber shifts, labelHeader_renumber shifts, refreshedSize_renumber shifts,
      classes]
    rfl

end Registry

/-! ## Batches -/

namespace Ingest

theorem technicalNode_renumber (state : Ingest R) (node : Node) :
    (state.renumber f).technicalNode node = (state.technicalNode node).renumber f := by
  have known : (state.renumber f).registry.containsNode node.id =
      state.registry.containsNode node.id :=
    state.registry.containsNode_renumber node.id
  have inserted : (state.renumber f).registry.classes.insert
      (.ofNode node (state.renumber f).registry.defaultToggles) =
        (state.registry.classes.insert (.ofNode node state.registry.defaultToggles)).map
          (ClassNode.renumber f) :=
    Store.insert_map ClassNode.key_renumber state.registry.classes
      (.ofNode node state.registry.defaultToggles)
  unfold technicalNode
  rw [known, inserted]
  split
  · rfl
  · split <;> rfl

omit [Scalar R] in
theorem claimMethod_renumber (state : Ingest R) (link : Relationship) :
    (state.renumber f).claimMethod link = (state.claimMethod link).renumber f := by
  have owner : (state.renumber f).registry.classes.contains link.source =
      state.registry.classes.contains link.source :=
    state.registry.contains_classes_renumber link.source
  have pending : (state.renumber f).pending = state.pending := rfl
  unfold claimMethod
  rw [owner, pending]
  split
  · rfl
  · cases state.pending.get? link.target with
    | none => rfl
    | some node =>
      let method := Method.ofNode node link.source
      have inserted : (state.renumber f).registry.methods.insert method =
          (state.registry.methods.insert method).map (Method.renumber f) :=
        Store.insert_map Method.key_renumber state.registry.methods method
      have listed : (state.renumber f).registry.classes.modify link.source (fun owner =>
          { owner with methods := owner.methods ++ [method.id] }) =
            (state.registry.classes.modify link.source fun owner =>
              { owner with methods := owner.methods ++ [method.id] }).map (ClassNode.renumber f) :=
        Store.modify_map ClassNode.key_renumber state.registry.classes link.source
          fun _ => rfl
      dsimp only
      rw [inserted, listed]
      rfl

theorem refreshTouched_renumber (shifts : Shifts f) (state : Ingest R) :
    (state.renumber f).refreshTouched = state.refreshTouched.renumber f := by
  unfold refreshTouched
  dsimp only
  have refreshed : ∀ ids : List NodeId, ids.foldl Registry.refreshClass (state.renumber f).registry =
      (ids.foldl Registry.refreshClass state.registry).renumber f :=
    fun ids => List.foldl_hom (Registry.renumber f) (Registry.refreshClass_renumber shifts)
  rw [refreshed]
  rfl

theorem architectureNode_renumber (shifts : Shifts f) (state : Ingest R) (node : Node) :
    (state.renumber f).architectureNode node = (state.architectureNode node).renumber f := by
  have known : (state.renumber f).registry.containsNode node.id =
      state.registry.containsNode node.id :=
    state.registry.containsNode_renumber node.id
  have pool : (state.renumber f).registry.pool = state.registry.pool.renumber f := rfl
  unfold architectureNode
  rw [known]
  split
  · rfl
  · simp only [Registry.newStandalone, Pool.allocateLabel, Pool.allocateShape, pool,
      Pool.allocate_renumber shifts]
    simp only [renumber, Registry.renumber, ← Store.insert_map StandaloneNode.key_renumber]
    rfl

omit [Scalar R] in
theorem edge_renumber (state : Ingest R) (link : Relationship) :
    (state.renumber f).edge link = (state.edge link).renumber f := by
  have known : ∀ id, (state.renumber f).registry.containsNode id =
      state.registry.containsNode id :=
    state.registry.containsNode_renumber
  have drawn : (state.renumber f).registry.edges.contains link.id =
      state.registry.edges.contains link.id :=
    state.registry.contains_edges_renumber link.id
  have inserted : (state.renumber f).registry.edges.insert
      ⟨link.id, link.kind, link.source, link.target, none⟩ =
        (state.registry.edges.insert ⟨link.id, link.kind, link.source,
          link.target, none⟩).map (Edge.renumber f) :=
    Store.insert_map Edge.key_renumber state.registry.edges
      ⟨link.id, link.kind, link.source, link.target, none⟩
  unfold edge
  dsimp only
  rw [known, known, drawn, inserted]
  split
  · rfl
  · split <;> rfl

end Ingest

namespace Registry

theorem withNodes_renumber (shifts : Shifts f) (reg : Registry R) (nodes : List Node)
    (links : List Relationship) :
    (reg.renumber f).withNodes nodes links =
      (reg.withNodes nodes links).renumber f := by
  have start : (Ingest.mk (reg.renumber f) {} [] {}) =
      (Ingest.mk reg {} [] {}).renumber f := rfl
  have perspective : (reg.renumber f).perspective = reg.perspective := rfl
  unfold withNodes
  rw [perspective, start]
  cases reg.perspective with
  | technical =>
    simp only [Ingest.technical]
    rw [List.foldl_hom (Ingest.renumber f) Ingest.technicalNode_renumber,
      List.foldl_hom (Ingest.renumber f) Ingest.claimMethod_renumber,
      Ingest.refreshTouched_renumber shifts]
  | architecture =>
    exact List.foldl_hom (Ingest.renumber f) (Ingest.architectureNode_renumber shifts)

/-- A batch does to a renumbered map what it does to the map. -/
theorem addData_renumber (shifts : Shifts f) (reg : Registry R) (nodes : List Node)
    (links : List Relationship) :
    (reg.renumber f).addData nodes links =
      ((reg.addData nodes links).1, (reg.addData nodes links).2.renumber f) := by
  have whole : (reg.renumber f).withData nodes links =
      (reg.withData nodes links).renumber f := by
    rw [withData, withNodes_renumber shifts]
    exact List.foldl_hom (Ingest.renumber f) Ingest.edge_renumber
  rw [addData_eq, addData_eq, whole]
  rfl

end Registry

end CodeAtlas
