import CodeAtlas.Model.Payload

/-!
# Roles

What a drawn or pickable part of the diagram stands for.
-/

namespace CodeAtlas

inductive Role where
  | classBackground (classId : NodeId)
  | classHeader (classId : NodeId)
  | methodRow (classId methodId : NodeId)
  | standalone (nodeId : NodeId)
  | edge (edgeId : EdgeId)
  | callArrow (index : Nat)
  | laneHeader (lane : Nat) (classId : NodeId)
  | lifeline (lane : Nat)
deriving DecidableEq, Repr, Inhabited

namespace Role

/-- Whether the role reacts to the pointer. -/
def isInteractive : Role → Bool
  | edge _ | lifeline _ => false
  | _ => true

/-- The node that a secondary click on the role is about. -/
def nodeId? : Role → Option NodeId
  | classBackground id | classHeader id | laneHeader _ id | methodRow _ id | standalone id => some id
  | edge _ | callArrow _ | lifeline _ => none

/-- Whether the role is about the given node. -/
def mentions (id : NodeId) : Role → Bool
  | classBackground classId | classHeader classId | laneHeader _ classId => classId == id
  | methodRow classId methodId => classId == id || methodId == id
  | standalone nodeId => nodeId == id
  | edge _ | callArrow _ | lifeline _ => false

end Role

end CodeAtlas
