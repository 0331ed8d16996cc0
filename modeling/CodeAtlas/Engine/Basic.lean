import CodeAtlas.Event
import CodeAtlas.Pointer
import CodeAtlas.Registry.Ingest
import CodeAtlas.Registry.Remove
import CodeAtlas.Scene

/-!
# The diagram

The registry, its layout, the camera and the interaction, tied together.  Data
goes in through operations and events come out through a queue.
-/

namespace CodeAtlas

/-- What is shown. -/
inductive ViewMode (R : Type) where
  | graph
  | sequence (view : SequenceView R)

structure Engine (R : Type) where
  config : EngineConfig R
  registry : Registry R
  layouter : Layouter R
  camera : Camera R
  pointer : PointerTracker R
  interaction : Interaction
  hitTester : HitTester R
  scene : Scene R
  mode : ViewMode R
  events : EventQueue R

namespace Engine

variable {R : Type} [Scalar R]

/-- A new diagram over some text metrics and a way to place boxes. -/
def withLayouter (config : EngineConfig R) (text : TextMetrics R) (layouter : Layouter R)
    (viewport : Vec R) : Engine R :=
  { config
    registry := .create config.node config.members text
    layouter
    camera := .create viewport.x viewport.y config.camera.initialExtent
    pointer := .create config.interaction.dragThreshold
    interaction := {}
    hitTester := {}
    scene := {}
    mode := .graph
    events := {} }

/-- A new diagram with the tree layout and the font of the configuration. -/
def create (fonts : Fonts R) (files : FileReader) (config : EngineConfig R) (viewport : Vec R) :
    Engine R :=
  withLayouter config (.load fonts files config.text.fontPath config.text.fontSize)
    (TreeLayouter.ofSettings config.layout).execute viewport

def pool (engine : Engine R) : Pool R :=
  engine.registry.pool

/-- The sequence diagram that is shown, if one is. -/
def sequence? (engine : Engine R) : Option (SequenceView R) :=
  match engine.mode with
  | .graph => none
  | .sequence view => some view

def isSequence (engine : Engine R) : Bool :=
  engine.sequence?.isSome

def publish (engine : Engine R) (event : Event R) : Engine R :=
  { engine with events := engine.events.publish event }

/-- The source of the selected class. -/
def selectedSource (engine : Engine R) : Option SourceView :=
  engine.interaction.selectedClass.bind engine.registry.classSource

/-! ## Keeping the scene -/

/-- The scene of what is shown. -/
def currentScene (engine : Engine R) : Scene R :=
  match engine.mode with
  | .graph => .ofRegistry engine.registry
  | .sequence view => .ofSequence view engine.registry.pool

/-- Builds the scene anew.  A hovered part that is gone is forgotten. -/
def rebuildScene (engine : Engine R) : Engine R :=
  let scene := engine.currentScene
  let regions := scene.hitRegions
  { engine with
    scene
    hitTester := ⟨regions⟩
    interaction := { engine.interaction with
      hovered := engine.interaction.hovered.filter fun role =>
        regions.any fun region => region.role == role } }

/-- Places every box and routes every edge. -/
def relayout (engine : Engine R) : Engine R :=
  let nodes := engine.registry.layoutNodes
  let engine :=
    if nodes.isEmpty then engine
    else
      let positions := engine.layouter nodes engine.registry.layoutEdges
      { engine with registry := (engine.registry.applyPositions positions).updateEdgeGeometry }
  engine.rebuildScene

/-- The least rectangle around what is shown. -/
def contentBounds (engine : Engine R) : Option (Rect R) :=
  match engine.mode with
  | .graph => engine.registry.bounds
  | .sequence view => view.bounds

/-- Shows all of the content; tells whether there is any. -/
def fitToContent (engine : Engine R) : Bool × Engine R :=
  match engine.contentBounds with
  | none => (false, engine)
  | some bounds =>
    (true, { engine with camera := engine.camera.fit bounds engine.config.camera.fitMargin })

def resize (engine : Engine R) (width height : R) : Bool × Engine R :=
  let (changed, camera) := engine.camera.resize width height
  (changed, { engine with camera })

/-- Drops the sequence diagram, if one is shown, and gives its resources back.
The scene is left to the caller. -/
def leaveSequence (engine : Engine R) : Bool × Engine R :=
  match engine.mode with
  | .graph => (false, engine)
  | .sequence view =>
    let engine := { engine with
      mode := .graph
      registry := { engine.registry with pool := view.release engine.registry.pool }
      interaction := { engine.interaction with selectedCall := none } }
    (true, engine.publish .sequenceExited)

/-! ## Data -/

/-- Changes the perspective, which empties the map. -/
def setPerspective (engine : Engine R) (perspective : Perspective) : Bool × Engine R :=
  if perspective = engine.registry.perspective then (false, engine)
  else
    let engine := engine.leaveSequence.2
    let engine := { engine with
      registry := (engine.registry.setPerspective perspective).2
      interaction := {} }
    (true, engine.rebuildScene.publish (.perspectiveChanged perspective))

/-- Replaces everything by a batch, places it and shows all of it. -/
def setData (engine : Engine R) (nodes : List Node) (relationships : List Relationship) :
    IngestReport × Engine R :=
  let engine := engine.leaveSequence.2
  let (report, registry) := engine.registry.setData nodes relationships
  let engine := { engine with registry, interaction := {} }
  (report, engine.relayout.fitToContent.2)

def setPayload (engine : Engine R) (payload : Payload) : IngestReport × Engine R :=
  engine.setData payload.nodes payload.relationships

/-- Merges a batch and places everything again; the camera stays. -/
def addData (engine : Engine R) (nodes : List Node) (relationships : List Relationship) :
    IngestReport × Engine R :=
  let (report, registry) := engine.registry.addData nodes relationships
  let engine := { engine with registry }
  if report.changed then (report, engine.leaveSequence.2.relayout) else (report, engine)

/-- Removes what an id names. -/
def deleteNode (engine : Engine R) (id : NodeId) : Bool × Engine R :=
  let owned := (engine.registry.methodsOf id).map Method.id
  match engine.registry.deleteNode id with
  | (false, registry) => (false, { engine with registry })
  | (true, registry) =>
    let engine := { engine with registry }.leaveSequence.2
    let interaction := owned.foldl Interaction.forget (engine.interaction.forget id)
    (true, { engine with interaction }.relayout)

/-- Takes everything off the map. -/
def clear (engine : Engine R) : Engine R :=
  let engine := engine.leaveSequence.2
  let engine := { engine with
    registry := engine.registry.clear
    interaction := {}
    pointer := engine.pointer.cancel }
  engine.rebuildScene.publish .sceneCleared

/-- Removes everything but one class and shows it. -/
def focusOnClass (engine : Engine R) (classId : NodeId) : Bool × Engine R :=
  match engine.registry.focusOnClass classId with
  | (false, registry) => (false, { engine with registry })
  | (true, registry) =>
    let engine := { engine with registry }.leaveSequence.2
    let engine := { engine with interaction := ({} : Interaction).selectClass classId }
    (true, engine.relayout.fitToContent.2)

/-- Follows up on a change of rows: a selected method that is no longer shown
is not selected any more. -/
def afterRowChange (engine : Engine R) : Engine R :=
  let engine := engine.leaveSequence.2
  let interaction := { engine.interaction with
    selectedMethod := engine.interaction.selectedMethod.filter fun id =>
      (engine.registry.methodRowRect id).isSome }
  { engine with interaction }.relayout

/-- Follows up on a change of rows, if there was one. -/
def withRows (engine : Engine R) (change : Bool × Registry R) : Bool × Engine R :=
  match change with
  | (true, registry) => (true, { engine with registry }.afterRowChange)
  | (false, registry) => (false, { engine with registry })

def setToggle (engine : Engine R) (classId : NodeId) (toggle : Toggle) (enabled : Bool) :
    Bool × Engine R :=
  engine.withRows (engine.registry.setToggle classId toggle enabled)

def flipToggle (engine : Engine R) (classId : NodeId) (toggle : Toggle) : Bool × Engine R :=
  engine.withRows (engine.registry.flipToggle classId toggle)

def focusMethod (engine : Engine R) (methodId : NodeId) : Bool × Engine R :=
  engine.withRows (engine.registry.focusMethod methodId)

def restoreMethods (engine : Engine R) (classId : NodeId) : Bool × Engine R :=
  engine.withRows (engine.registry.restoreMethods classId)

/-! ## Sequence diagrams -/

/-- Shows the calls from a method instead of the map. -/
def showSequence (engine : Engine R) (root : NodeId) : Bool × Engine R :=
  let engine := engine.leaveSequence.2
  match SequenceView.build engine.registry root engine.config.sequence engine.config.interaction with
  | none => (false, engine)
  | some (view, registry) =>
    let engine := { engine with registry, mode := .sequence view, interaction := {} }
    (true, engine.rebuildScene.fitToContent.2.publish
      (.sequenceEntered root view.calls.length))

/-- Goes back to the map. -/
def exitSequence (engine : Engine R) : Bool × Engine R :=
  match engine.leaveSequence with
  | (false, engine) => (false, engine)
  | (true, engine) => (true, { engine with interaction := {} }.rebuildScene.fitToContent.2)

/-! ## Output -/

/-- What is shown, with hover and selection applied. -/
def frame (engine : Engine R) : Frame R :=
  engine.scene.frame engine.camera engine.interaction

end Engine

end CodeAtlas
