import CodeAtlas.Engine.Basic

/-!
# Landmarks

Places in the diagram by what is there, and where they are on the screen.
-/

namespace CodeAtlas

inductive Landmark (R : Type) where
  /-- A pixel. -/
  | screen (position : Vec R)
  /-- A point of the diagram. -/
  | world (position : Vec R)
  /-- The middle of a class header. -/
  | header (classId : NodeId)
  /-- The middle of a method row. -/
  | row (methodId : NodeId)
  /-- The middle of what an id names. -/
  | node (id : NodeId)
  /-- Just above the lower border of what an id names. -/
  | bottom (id : NodeId)
  /-- The middle of a lane header. -/
  | lane (index : Nat)
  /-- The middle of the first stretch of a call arrow. -/
  | call (index : Nat)

namespace Landmark

def isOnScreen {R : Type} : Landmark R → Bool
  | screen _ => true
  | _ => false

end Landmark

namespace Engine

variable {R : Type} [Scalar R]

/-- Where a landmark is in the diagram, if it is there. -/
def locateInWorld (engine : Engine R) : Landmark R → Option (Vec R)
  | .screen position => some (engine.camera.screenToWorld position)
  | .world position => some position
  | .header id => (engine.registry.headerRect id).map Rect.center
  | .row id => (engine.registry.methodRowRect id).map Rect.center
  | .node id => (engine.registry.anchorRect id).map Rect.center
  | .bottom id =>
    (engine.registry.anchorRect id).map fun rect => ⟨rect.center.x, rect.max.y - 2.0⟩
  | .lane index => do
      let view ← engine.sequence?
      let lane ← view.lanes[index]?
      pure lane.header.center
  | .call index => do
      let view ← engine.sequence?
      let arrow ← view.arrows[index]?
      let first ← arrow.path[0]?
      let second ← arrow.path[1]?
      pure ((first + second) * (0.5 : R))

/-- The pixel of a landmark, moved by an offset unless it is a pixel itself. -/
def locate (engine : Engine R) (place : Landmark R) (offset : Vec R) : Option (Vec R) :=
  match place with
  | .screen position => some position
  | place => (engine.locateInWorld place).map fun world => engine.camera.worldToScreen world + offset

end Engine

end CodeAtlas
