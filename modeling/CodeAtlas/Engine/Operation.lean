import CodeAtlas.Engine.Pointer

/-!
# Operations on a diagram

Everything that can be asked of a diagram, pointer input among it.  To perform an
operation is to apply it and to make sure that nothing has come about that is too
large to be held.
-/

namespace CodeAtlas.Engine

variable {R : Type} [Scalar R]

/-- What can be asked of a diagram. -/
inductive Operation (R : Type) where
  | setPerspective (perspective : Perspective)
  | setData (nodes : List Node) (relationships : List Relationship)
  | addData (nodes : List Node) (relationships : List Relationship)
  | deleteNode (id : NodeId)
  | clear
  | focusOnClass (classId : NodeId)
  | setToggle (classId : NodeId) (toggle : Toggle) (enabled : Bool)
  | flipToggle (classId : NodeId) (toggle : Toggle)
  | focusMethod (methodId : NodeId)
  | restoreMethods (classId : NodeId)
  | showSequence (root : NodeId)
  | exitSequence
  | relayout
  | fitToContent
  | resize (width height : R)
  | pointerDown (screen : Vec R) (button : PointerButton)
  | pointerMove (screen : Vec R)
  | pointerUp (screen : Vec R) (button : PointerButton)
  | pointerLeave
  | wheel (screen : Vec R) (notches : R)

/-- The diagram after an operation, unless it fails. -/
def apply (engine : Engine R) : Operation R → Except Fault (Engine R)
  | .setPerspective perspective => .ok (engine.setPerspective perspective).2
  | .setData nodes relationships => .ok (engine.setData nodes relationships).2
  | .addData nodes relationships => .ok (engine.addData nodes relationships).2
  | .deleteNode id => .ok (engine.deleteNode id).2
  | .clear => .ok engine.clear
  | .focusOnClass classId => .ok (engine.focusOnClass classId).2
  | .setToggle classId toggle enabled => .ok (engine.setToggle classId toggle enabled).2
  | .flipToggle classId toggle => .ok (engine.flipToggle classId toggle).2
  | .focusMethod methodId => .ok (engine.focusMethod methodId).2
  | .restoreMethods classId => .ok (engine.restoreMethods classId).2
  | .showSequence root => .ok (engine.showSequence root).2
  | .exitSequence => .ok engine.exitSequence.2
  | .relayout => .ok engine.relayout
  | .fitToContent => .ok engine.fitToContent.2
  | .resize width height => .ok (engine.resize width height).2
  | .pointerDown screen button => .ok (engine.pointerDown screen button)
  | .pointerMove screen => .ok (engine.pointerMove screen).2
  | .pointerUp screen button => .ok (engine.pointerUp screen button).2
  | .pointerLeave => .ok engine.pointerLeave.2
  | .wheel screen notches => (engine.wheel screen notches).map Prod.snd

/-- The diagram after operations, the first one first, unless one of them
fails. -/
def run (engine : Engine R) (operations : List (Operation R)) : Except Fault (Engine R) :=
  operations.foldlM apply engine

/-- The diagram after an operation, unless it fails or something has become too
large. -/
def perform (engine : Engine R) (operation : Operation R) : Except Fault (Engine R) := do
  (← engine.apply operation).checked

/-- The diagram after operations that are performed one after the other. -/
def execute (engine : Engine R) (operations : List (Operation R)) : Except Fault (Engine R) :=
  operations.foldlM perform engine

end CodeAtlas.Engine
