import CodeAtlas.Geometry.Curve
import CodeAtlas.Sequence.Calls

/-!
# Sequence diagrams

A lane for each class and a row for each call.  The labels of a diagram live in
the registry's pool and have to be given back when the diagram goes.
-/

namespace CodeAtlas

/-- The column of a class. -/
structure Lane (R : Type) where
  classId : NodeId
  name : String
  header : Rect R
  /-- Both ends of the dashed line below the header. -/
  lifeline : Vec R × Vec R
  label : ResourceId

/-- The row of a call. -/
structure CallArrow (R : Type) where
  index : Nat
  fromLane : Nat
  toLane : Nat
  /-- A straight line, or a loop for a call within a lane. -/
  path : List (Vec R)
  head : List (Vec R)
  labelRect : Rect R
  label : ResourceId

namespace CallArrow

def isLoop {R : Type} (arrow : CallArrow R) : Bool :=
  arrow.fromLane == arrow.toLane

end CallArrow

/-- A sequence diagram. -/
structure SequenceView (R : Type) where
  rootId : NodeId
  lanes : List (Lane R)
  calls : List Call
  arrows : List (CallArrow R)
  /-- Half the width of the band around arrows that can be picked. -/
  hitHalfWidth : R

namespace SequenceView

variable {R : Type} [Scalar R]

/-- How labels on sequence diagrams look. -/
def labelStyle : LabelStyle R :=
  ⟨.text, .transparent, 4.0⟩

/-- The middle of a lane. -/
def laneCenter (settings : SequenceSettings R) (lane : Nat) : R :=
  Scalar.ofNat lane * (settings.laneWidth + settings.laneGap) + settings.laneWidth * 0.5

/-- The height of a row. -/
def rowY (settings : SequenceSettings R) (index : Nat) : R :=
  settings.headerHeight + (Scalar.ofNat index + 1.0) * settings.rowHeight

/-- The lane of a class, with its label taken into the pool. -/
def lane (settings : SequenceSettings R) (text : TextMetrics R) (callCount index : Nat)
    (id : NodeId) (name : String) (pool : Pool R) : Lane R × Pool R :=
  let x := laneCenter settings index
  let (label, pool) := pool.allocateLabel (text.rasterize name labelStyle)
  ({ classId := id
     name
     header := .ofPosSize ⟨x - settings.laneWidth * 0.5, 0.0⟩
       ⟨settings.laneWidth, settings.headerHeight⟩
     lifeline := (⟨x, settings.headerHeight⟩, ⟨x, rowY settings callCount⟩)
     label }, pool)

/-- The lanes of classes from the given number on. -/
def lanesFrom (settings : SequenceSettings R) (text : TextMetrics R) (callCount : Nat) :
    Nat → List (NodeId × String) → Pool R → List (Lane R) × Pool R
  | _, [], pool => ([], pool)
  | index, (id, name) :: rest, pool =>
    let (lane, pool) := lane settings text callCount index id name pool
    let (lanes, pool) := lanesFrom settings text callCount (index + 1) rest pool
    (lane :: lanes, pool)

/-- The middle of a lane that is already there. -/
def lifelineX (lanes : List (Lane R)) (lane : Nat) : R :=
  match lanes[lane]? with
  | some lane => lane.lifeline.1.x
  | none => 0.0

/-- The row of a call, with its label taken into the pool. -/
def arrow (settings : SequenceSettings R) (text : TextMetrics R) (lanes : List (Lane R))
    (laneIds : List NodeId) (index : Nat) (call : Call) (pool : Pool R) :
    CallArrow R × Pool R :=
  let laneOf := fun (id : NodeId) => (laneIds.idxOf? id).getD 0
  let fromLane := laneOf call.callerClassId
  let toLane := laneOf call.targetClassId
  let y := rowY settings index
  let fromX := lifelineX lanes fromLane
  let toX := lifelineX lanes toLane
  let bitmap := text.rasterize (call.targetName ++ "()") labelStyle
  let size : Vec R := bitmap.size
  let (label, pool) := pool.allocateLabel bitmap
  if fromLane = toLane then
    let right := fromX + settings.selfLoopWidth
    let bottom := y + settings.selfLoopHeight
    ({ index, fromLane, toLane
       path := [⟨fromX, y⟩, ⟨right, y⟩, ⟨right, bottom⟩, ⟨fromX, bottom⟩]
       head := arrowhead ⟨fromX, bottom⟩ ⟨right, bottom⟩ settings.arrowLength settings.arrowWidth
       labelRect := .ofPosSize
         ⟨right + 4.0, y + (settings.selfLoopHeight - size.y) * 0.5⟩ size
       label }, pool)
  else
    ({ index, fromLane, toLane
       path := [⟨fromX, y⟩, ⟨toX, y⟩]
       head := arrowhead ⟨toX, y⟩ ⟨fromX, y⟩ settings.arrowLength settings.arrowWidth
       labelRect := .ofCenterSize
         ⟨(fromX + toX) * 0.5, y - size.y * 0.5 - 4.0 * 0.5⟩ size
       label }, pool)

/-- The rows of calls from the given number on. -/
def arrowsFrom (settings : SequenceSettings R) (text : TextMetrics R) (lanes : List (Lane R))
    (laneIds : List NodeId) : Nat → List Call → Pool R → List (CallArrow R) × Pool R
  | _, [], pool => ([], pool)
  | index, call :: rest, pool =>
    let (arrow, pool) := arrow settings text lanes laneIds index call pool
    let (arrows, pool) := arrowsFrom settings text lanes laneIds (index + 1) rest pool
    (arrow :: arrows, pool)

/-- The diagram of the calls from a method, with its labels taken into the
registry's pool; nothing if the method is not on the map. -/
def build (registry : Registry R) (root : NodeId) (settings : SequenceSettings R)
    (interaction : InteractionSettings R) : Option (SequenceView R × Registry R) := do
  let calls ← registry.collectCalls root
  let method ← registry.methods.get? root
  let laneIds := laneOrder method.classId calls
  let named := laneIds.map fun id => (id, ((registry.classes.get? id).map ClassNode.name).getD id)
  let (lanes, pool) := lanesFrom settings registry.text calls.length 0 named registry.pool
  let (arrows, pool) := arrowsFrom settings registry.text lanes laneIds 0 calls pool
  pure (⟨root, lanes, calls, arrows, interaction.hitHalfWidth⟩, { registry with pool })

/-- The least rectangle around the diagram. -/
def bounds (view : SequenceView R) : Option (Rect R) :=
  let lanes := view.lanes.map fun lane => lane.header.union ⟨lane.lifeline.1, lane.lifeline.2⟩
  let arrows := view.arrows.filterMap fun arrow =>
    (Rect.bounding arrow.path).map fun path => path.union arrow.labelRect
  Rect.unionAll (lanes ++ arrows)

/-- The resources that the diagram owns. -/
def resources (view : SequenceView R) : List ResourceId :=
  view.lanes.map Lane.label ++ view.arrows.map CallArrow.label

/-- Gives the resources of the diagram back. -/
def release (view : SequenceView R) (pool : Pool R) : Pool R :=
  pool.releaseAll view.resources

end SequenceView

end CodeAtlas
