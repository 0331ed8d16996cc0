import CodeAtlas.Proofs.Registry.Resources
import CodeAtlas.Sequence.View

/-!
# Sequence diagrams over a registry

A diagram can be drawn exactly for the methods on the map.  It changes nothing
of the registry but the pool, from which it takes one label for each lane and
each arrow, and its lanes stand for classes on the map.
-/

namespace CodeAtlas

variable {R : Type} [Scalar R] {reg : Registry R}

namespace SequenceView

/-- The slots that a diagram fills. -/
def slots (view : SequenceView R) : List Slot :=
  view.resources.map fun id => (id, .label)

/-! ## Labels -/

section

variable (settings : SequenceSettings R) (text : TextMetrics R)

theorem holds_lanesFrom (callCount index : Nat) (named : List (NodeId × String)) {pool : Pool R}
    {rest : List Slot} (holds : pool.Holds rest) :
    (lanesFrom settings text callCount index named pool).2.Holds
      (((lanesFrom settings text callCount index named pool).1.map fun lane =>
        (lane.label, ResourceKind.label)) ++ rest) := by
  induction named generalizing index pool rest with
  | nil => exact holds
  | cons first others ih =>
    have allocated := holds.allocateLabel (text.rasterize first.2 labelStyle)
    exact (ih (index + 1) allocated).of_perm List.perm_middle

theorem arrow_allocates (lanes : List (Lane R)) (laneIds : List NodeId) (index : Nat)
    (call : Call) (pool : Pool R) :
    ∃ bitmap, (arrow settings text lanes laneIds index call pool).1.label =
        (pool.allocateLabel bitmap).1 ∧
      (arrow settings text lanes laneIds index call pool).2 = (pool.allocateLabel bitmap).2 := by
  refine ⟨text.rasterize (call.targetName ++ "()") labelStyle, ?_⟩
  unfold arrow
  dsimp only
  split <;> exact ⟨rfl, rfl⟩

theorem holds_arrowsFrom (lanes : List (Lane R)) (laneIds : List NodeId) (index : Nat)
    (calls : List Call) {pool : Pool R} {rest : List Slot} (holds : pool.Holds rest) :
    (arrowsFrom settings text lanes laneIds index calls pool).2.Holds
      (((arrowsFrom settings text lanes laneIds index calls pool).1.map fun arrow =>
        (arrow.label, ResourceKind.label)) ++ rest) := by
  induction calls generalizing index pool rest with
  | nil => exact holds
  | cons call others ih =>
    obtain ⟨bitmap, label, after⟩ := arrow_allocates settings text lanes laneIds index call pool
    have allocated := holds.allocateLabel bitmap
    rw [← label, ← after] at allocated
    exact (ih (index + 1) allocated).of_perm List.perm_middle

end

/-! ## Lanes -/

theorem map_classId_lanesFrom (settings : SequenceSettings R) (text : TextMetrics R)
    (callCount index : Nat) (named : List (NodeId × String)) (pool : Pool R) :
    (lanesFrom settings text callCount index named pool).1.map Lane.classId =
      named.map Prod.fst := by
  induction named generalizing index pool with
  | nil => rfl
  | cons first others ih =>
    exact congrArg (first.1 :: ·) (ih _ _)

section
omit [Scalar R]

/-- Both ends of a recorded call are methods of classes on the map. -/
theorem classes_of_callRecord {caller target : NodeId} {depth : Nat} {call : Call}
    (recorded : reg.callRecord caller target depth = some call) :
    call.callerClassId ∈ reg.classes.keys ∧ call.targetClassId ∈ reg.classes.keys := by
  simp only [Registry.callRecord, Option.bind_eq_bind, Option.bind_eq_some_iff, Option.pure_def,
    Option.some.injEq] at recorded
  obtain ⟨_, _, _, _, callerClass, callerFound, targetClass, targetFound, rfl⟩ := recorded
  exact ⟨Store.key_mem_keys (Store.mem_of_get? callerFound),
    Store.key_mem_keys (Store.mem_of_get? targetFound)⟩

theorem classes_of_collectCalls {root : NodeId} {calls : List Call}
    (collected : reg.collectCalls root = some calls) {call : Call} (mem : call ∈ calls) :
    call.callerClassId ∈ reg.classes.keys ∧ call.targetClassId ∈ reg.classes.keys := by
  unfold Registry.collectCalls at collected
  split at collected
  · cases collected
    obtain ⟨step, _, recorded⟩ := List.mem_filterMap.mp mem
    exact classes_of_callRecord recorded
  · cases collected

/-- The lanes of a coherent map's calls stand for classes on the map. -/
theorem laneOrder_stored (coherent : reg.Coherent) {root : NodeId} {method : Method}
    (found : reg.methods.get? root = some method) {calls : List Call}
    (collected : reg.collectCalls root = some calls) {classId : NodeId}
    (mem : classId ∈ laneOrder method.classId calls) : classId ∈ reg.classes.keys := by
  rw [laneOrder, List.mem_eraseDups, List.mem_cons, List.mem_flatMap] at mem
  rcases mem with rfl | ⟨call, callMem, isEnd⟩
  · obtain ⟨owner, ownerMem, ownerId, _⟩ := coherent.owner method (Store.mem_of_get? found)
    exact ownerId ▸ Store.key_mem_keys ownerMem
  · obtain ⟨caller, target⟩ := classes_of_collectCalls collected callMem
    rcases List.mem_pair.mp isEnd with rfl | rfl
    · exact caller
    · exact target

end

theorem laneOrder_ne_nil (rootClass : NodeId) (calls : List Call) :
    laneOrder rootClass calls ≠ [] := by
  apply List.ne_nil_of_mem (a := rootClass)
  rw [laneOrder, List.mem_eraseDups]
  exact List.mem_cons_self

/-- What building a diagram can do. -/
theorem build_cases (reg : Registry R) (root : NodeId) (settings : SequenceSettings R)
    (interaction : InteractionSettings R) :
    (root ∉ reg.methods.keys ∧ build reg root settings interaction = none) ∨
      ∃ method view pool, reg.methods.get? root = some method ∧
        build reg root settings interaction = some (view, { reg with pool }) ∧
        reg.collectCalls root = some view.calls ∧
        view.lanes.map Lane.classId = laneOrder method.classId view.calls ∧
        ∀ rest, reg.pool.Holds rest → pool.Holds (view.slots ++ rest) := by
  unfold build
  cases found : reg.methods.get? root with
  | none =>
    have unknown := Store.get?_eq_none_iff.mp found
    have uncollected : reg.collectCalls root = none :=
      if_neg (by rw [Store.contains_iff]; exact unknown)
    left
    rw [uncollected]
    exact ⟨unknown, rfl⟩
  | some method =>
    have known : reg.methods.contains root = true :=
      Store.contains_iff.mpr (Store.mem_keys_of_get? found)
    cases collected : reg.collectCalls root with
    | none =>
      rw [Registry.collectCalls, if_pos known] at collected
      cases collected
    | some calls =>
      right
      refine ⟨method, _, _, rfl, rfl, rfl, ?_, ?_⟩
      · rw [map_classId_lanesFrom, List.map_map]
        exact List.map_id _
      · intro rest holds
        simp only [slots, resources, List.map_append, List.map_map]
        rw [List.append_assoc]
        apply Pool.Holds.swap
        apply holds_arrowsFrom
        exact holds_lanesFrom settings reg.text calls.length 0 _ holds

end SequenceView

end CodeAtlas
