import CodeAtlas.Role

/-!
# Hover and selection

What the pointer is over and what has been selected.  Frames read it to choose
colours.
-/

namespace CodeAtlas

structure Interaction where
  hovered : Option Role := none
  selectedClass : Option NodeId := none
  selectedMethod : Option NodeId := none
  selectedNode : Option NodeId := none
  selectedCall : Option Nat := none
deriving DecidableEq, Repr, Inhabited

namespace Interaction

/-- Hovers over a role or over nothing, and tells whether that is a change. -/
def setHovered (state : Interaction) (role : Option Role) : Bool × Interaction :=
  if state.hovered = role then (false, state) else (true, { state with hovered := role })

/-- Selects a class.  A selected method belongs to the selected class, so
another class drops it. -/
def selectClass (state : Interaction) (id : NodeId) : Interaction :=
  { state with
    selectedMethod := if state.selectedClass = some id then state.selectedMethod else none
    selectedClass := some id }

def selectMethod (state : Interaction) (id : NodeId) : Interaction :=
  { state with selectedMethod := some id }

def selectNode (state : Interaction) (id : NodeId) : Interaction :=
  { state with selectedNode := some id }

def selectCall (state : Interaction) (index : Nat) : Interaction :=
  { state with selectedCall := some index }

/-- Drops every mention of a node. -/
def forget (state : Interaction) (id : NodeId) : Interaction :=
  { state with
    hovered := state.hovered.filter fun role => !role.mentions id
    selectedClass := state.selectedClass.filter (· ≠ id)
    selectedMethod := state.selectedMethod.filter (· ≠ id)
    selectedNode := state.selectedNode.filter (· ≠ id) }

end Interaction

end CodeAtlas
