import CodeAtlas.Engine.Pointer
import CodeAtlas.Input
import CodeAtlas.Viewer.Settings
import CodeAtlas.Viewer.Texture

/-!
# The viewer

The diagram with a payload that can be opened, a status line and a context
menu.  What the user asks for is an action; what the diagram tells is an event.
Events wait in the diagram until they are dispatched.
-/

namespace CodeAtlas

/-- What the user can ask for. -/
inductive Action where
  | openPayload (path : PathName)
  | setPerspective (perspective : Perspective)
  | setToggle (classId : NodeId) (toggle : Toggle) (enabled : Bool)
  | focusMethod (id : NodeId)
  | restoreMethods (id : NodeId)
  | isolate (id : NodeId)
  | delete (id : NodeId)
  | showSequence (id : NodeId)
  | exitSequence
  | fit
  | clear

/-- The menu of a node; its position is in the window. -/
structure ContextMenu (R : Type) where
  id : NodeId
  labels : List String
  position : Vec R

structure Viewer (R : Type) where
  engine : Engine R
  settings : ViewerSettings R
  payload : Option Payload := none
  /-- What stands in the path field. -/
  pathInput : String := ""
  status : String := "Open a payload to start."
  /-- What was clicked last. -/
  clicked : Option NodeId := none
  lastCall : Option Call := none
  menu : Option (ContextMenu R) := none
  textures : TextureCache := {}
  /-- The corner of the canvas in the window, zero until it has been drawn. -/
  origin : Vec R
  pointerInside : Bool := false
  /-- Everything is to be shown when the canvas is drawn next. -/
  needsFit : Bool := false
  /-- The list of recent payloads is unfolded. -/
  recentUnfolded : Bool := false

namespace Viewer

variable {R : Type} [Scalar R]

/-- Shows the payload anew. -/
def reload (viewer : Viewer R) : Viewer R :=
  match viewer.payload with
  | none => viewer
  | some payload =>
    let (report, engine) := viewer.engine.setPayload payload
    { viewer with
      engine
      clicked := none
      lastCall := none
      needsFit := true
      status := toString engine.registry.nodeCount ++ " nodes, " ++
        toString engine.registry.edgeCount ++ " edges (" ++ toString report.edgesDropped ++
        " dropped)" }

/-- Opens a payload and remembers it.  A file that is of no use leaves all as
it was but for the path field and the status. -/
def openPayload (files : FileReader) (viewer : Viewer R) (path : PathName) : Viewer R :=
  match Payload.read files path with
  | .error failure => { viewer with pathInput := path.text, status := failure.message }
  | .ok payload =>
    let viewer := { viewer with pathInput := path.text, payload := some payload }.reload
    { viewer with settings := viewer.settings.remember path }

/-- Does what the user asks for. -/
def apply (files : FileReader) (viewer : Viewer R) : Action → Viewer R
  | .openPayload path => viewer.openPayload files path
  | .setPerspective perspective =>
    match viewer.engine.setPerspective perspective with
    | (false, engine) => { viewer with engine }
    | (true, engine) =>
      { viewer with engine, settings := { viewer.settings with perspective } }.reload
  | .setToggle id toggle enabled =>
    { viewer with engine := (viewer.engine.setToggle id toggle enabled).2 }
  | .focusMethod id => { viewer with engine := (viewer.engine.focusMethod id).2 }
  | .restoreMethods id => { viewer with engine := (viewer.engine.restoreMethods id).2 }
  | .isolate id =>
    let (done, engine) := viewer.engine.focusOnClass id
    { viewer with engine, needsFit := viewer.needsFit || done }
  | .delete id =>
    let (done, engine) := viewer.engine.deleteNode id
    { viewer with
      engine
      clicked := if done && viewer.clicked = some id then none else viewer.clicked }
  | .showSequence id =>
    match viewer.engine.showSequence id with
    | (true, engine) => { viewer with engine }
    | (false, engine) => { viewer with engine, status := id ++ " has no call sequence" }
  | .exitSequence => { viewer with engine := viewer.engine.exitSequence.2 }
  | .fit => { viewer with engine := viewer.engine.fitToContent.2 }
  | .clear => { viewer with engine := viewer.engine.clear, payload := none, clicked := none }

/-- Takes notice of an event. -/
def handle (viewer : Viewer R) : Event R → Viewer R
  | .nodeClicked id =>
    { viewer with clicked := some id, menu := none, status := "Selected " ++ id }
  | .nodeRightClicked id labels x y =>
    { viewer with menu := some ⟨id, labels, ⟨viewer.origin.x + x, viewer.origin.y + y⟩⟩ }
  | .headerClicked id => { viewer with clicked := some id, status := "Lane " ++ id }
  | .callArrowClicked call =>
    { viewer with
      lastCall := some call
      status := call.callerName ++ " calls " ++ call.targetName }
  | .perspectiveChanged _ => viewer
  | .sceneCleared => { viewer with menu := none, status := "Scene cleared" }
  | .sequenceEntered root count =>
    { viewer with
      lastCall := none
      menu := none
      status := "Sequence from " ++ root ++ " (" ++ toString count ++ " calls)" }
  | .sequenceExited => { viewer with lastCall := none, status := "Back to graph" }

/-- Takes notice of all events that wait in the diagram. -/
def dispatch (viewer : Viewer R) : Viewer R :=
  let (heard, events) := viewer.engine.events.dispatch handle viewer
  { heard with engine := { heard.engine with events } }

/-- The viewer, unless its diagram holds something too large to be held. -/
def checked (viewer : Viewer R) : Except Fault (Viewer R) :=
  if viewer.engine.fits then .ok viewer else .error .oversized

/-- Does what the user asks for, unless something becomes too large. -/
def perform (files : FileReader) (viewer : Viewer R) (action : Action) : Except Fault (Viewer R) :=
  (viewer.apply files action).checked

end Viewer

/-- The settings of the diagram in a viewer: those of the given file, else of
the file that is remembered, and the standard ones if that file is of no use.
Without any file only the switches are taken from the viewer. -/
def ViewerSettings.config (files : FileReader) (settings : ViewerSettings Float32)
    (given : Option PathName) : EngineConfig Float32 :=
  match given.or settings.engineConfig with
  | some path =>
    match EngineConfig.read files path with
    | .ok config => config
    | .error _ => .standard
  | none => { (.standard : EngineConfig Float32) with members := settings.members }

/-- A new viewer, with the given payload or the last one that was opened, unless
that is too large. -/
def Viewer.start (fonts : Fonts Float32) (files : FileReader) (settings : ViewerSettings Float32)
    (payload config : Option PathName) : Except Fault (Viewer Float32) :=
  let engine := Engine.create fonts files (settings.config files config) ⟨1280.0, 720.0⟩
  let viewer : Viewer Float32 :=
    { engine := (engine.setPerspective settings.perspective).2
      settings
      origin := .zero }
  match payload.or settings.lastPayload with
  | some path => (viewer.openPayload files path).checked
  | none => .ok viewer

end CodeAtlas
