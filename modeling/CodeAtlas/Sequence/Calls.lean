import CodeAtlas.Model.Call
import CodeAtlas.Registry.Basic

/-!
# Calls from a method

The call graph is walked depth first.  Every call that is met becomes one
record; the calls of a method itself are followed only the first time it is
reached, so that cycles end.
-/

namespace CodeAtlas

/-- A method whose calls are being followed. -/
structure CallFrame where
  caller : NodeId
  depth : Nat
  /-- The targets of its calls that are still to come. -/
  remaining : List NodeId

namespace CallFrame

/-- The number of calls still to come in all frames. -/
def outstanding (frames : List CallFrame) : Nat :=
  frames.foldr (fun frame total => frame.remaining.length + total) 0

end CallFrame

/-- Walks the calls of the frames, the innermost first.  `fresh` holds the
methods that have not been reached; the result lists caller, target and depth
of each call. -/
def walkCalls (targets : NodeId → List NodeId) (fresh : List NodeId) (frames : List CallFrame) :
    List (NodeId × NodeId × Nat) :=
  match frames with
  | [] => []
  | ⟨_, _, []⟩ :: frames => walkCalls targets fresh frames
  | ⟨caller, depth, target :: remaining⟩ :: frames =>
    let rest : List CallFrame := ⟨caller, depth, remaining⟩ :: frames
    if target ∈ fresh then
      (caller, target, depth) ::
        walkCalls targets (fresh.erase target) (⟨target, depth + 1, targets target⟩ :: rest)
    else
      (caller, target, depth) :: walkCalls targets fresh rest
termination_by (fresh.length, CallFrame.outstanding frames, frames.length)
decreasing_by
  · simp only [CallFrame.outstanding, List.foldr_cons, List.length_nil, Nat.zero_add]
    exact Prod.Lex.right _ (Prod.Lex.right _ (by simp))
  · rename_i known
    exact Prod.Lex.left _ _ (by
      have := List.length_pos_of_mem known
      rw [List.length_erase_of_mem known]
      omega)
  · exact Prod.Lex.right _ (Prod.Lex.left _ _ (by simp [CallFrame.outstanding]))

namespace Registry

variable {R : Type} [Scalar R]

/-- The methods that a method calls, in the order of the edges. -/
def callTargets (registry : Registry R) (caller : NodeId) : List NodeId :=
  registry.edges.items.filterMap fun edge =>
    if edge.kind = .calls ∧ edge.source = caller ∧ registry.methods.contains edge.source ∧
        registry.methods.contains edge.target then some edge.target
    else none

/-- The record of a call between two methods. -/
def callRecord (registry : Registry R) (caller target : NodeId) (depth : Nat) : Option Call := do
  let caller ← registry.methods.get? caller
  let target ← registry.methods.get? target
  let callerClass ← registry.classes.get? caller.classId
  let targetClass ← registry.classes.get? target.classId
  pure {
    callerId := caller.id
    callerName := caller.displayName callerClass.name
    callerClassId := callerClass.id
    callerClassName := callerClass.name
    targetId := target.id
    targetName := target.displayName targetClass.name
    targetClassId := targetClass.id
    targetClassName := targetClass.name
    depth }

/-- The calls that a method leads to, if it is on the map. -/
def collectCalls (registry : Registry R) (root : NodeId) : Option (List Call) :=
  if registry.methods.contains root then
    let fresh := registry.methods.keys.erase root
    let walked := walkCalls registry.callTargets fresh [⟨root, 0, registry.callTargets root⟩]
    some (walked.filterMap fun (caller, target, depth) =>
      registry.callRecord caller target depth)
  else none

end Registry

/-- The classes of a sequence in the order they first appear, that of the root
first. -/
def laneOrder (rootClass : NodeId) (calls : List Call) : List NodeId :=
  (rootClass :: calls.flatMap fun call => [call.callerClassId, call.targetClassId]).eraseDups

end CodeAtlas
