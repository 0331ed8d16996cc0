import CodeAtlas.Engine.Basic

/-!
# Pointer input

Positions are in pixels.  Results tell whether what is shown has changed.
-/

namespace CodeAtlas

namespace Engine

variable {R : Type} [Scalar R]

/-- The part of the diagram under a pixel that reacts to the pointer. -/
def pick (engine : Engine R) (screen : Vec R) : Option (Hit R) :=
  (engine.hitTester.cast (engine.camera.ray screen)).filter fun hit => hit.role.isInteractive

def pointerDown (engine : Engine R) (screen : Vec R) (button : PointerButton) : Engine R :=
  { engine with pointer := engine.pointer.down screen button }

/-- Hovers over a part or over nothing. -/
def hover (engine : Engine R) (role : Option Role) : Bool × Engine R :=
  let (changed, interaction) := engine.interaction.setHovered role
  (changed, { engine with interaction })

def pointerMove (engine : Engine R) (screen : Vec R) : Bool × Engine R :=
  let (outcome, pointer) := engine.pointer.move screen
  let engine := { engine with pointer }
  match outcome with
  | .hover position => engine.hover ((engine.pick position).map Hit.role)
  | .pan _ delta => (true, { engine with camera := engine.camera.pan delta })
  | _ => (false, engine)

/-- Selects what a primary click hits and tells the world. -/
def click (engine : Engine R) (screen : Vec R) : Bool × Engine R :=
  let state := engine.interaction
  match (engine.pick screen).map Hit.role with
  | some (.classBackground id) | some (.classHeader id) =>
    (true, { engine with interaction := state.selectClass id }.publish (.nodeClicked id))
  | some (.methodRow classId id) =>
    (true, { engine with interaction := (state.selectClass classId).selectMethod id }.publish
      (.nodeClicked id))
  | some (.standalone id) =>
    (true, { engine with interaction := state.selectNode id }.publish (.nodeClicked id))
  | some (.laneHeader _ id) =>
    (true, { engine with interaction := state.selectClass id }.publish (.headerClicked id))
  | some (.callArrow index) =>
    match engine.sequence?.bind fun view => view.calls[index]? with
    | some call =>
      (true, { engine with interaction := state.selectCall index }.publish
        (.callArrowClicked call))
    | none => (false, engine)
  | some (.edge _) | some (.lifeline _) | none => (false, engine)

/-- Tells the world what a secondary click hits. -/
def rightClick (engine : Engine R) (screen : Vec R) : Engine R :=
  match (engine.pick screen).bind fun hit => hit.role.nodeId? with
  | none => engine
  | some id =>
    engine.publish
      (.nodeRightClicked id ((engine.registry.labelsOf id).getD []) screen.x screen.y)

def pointerUp (engine : Engine R) (screen : Vec R) (button : PointerButton) : Bool × Engine R :=
  let (outcome, pointer) := engine.pointer.up screen button
  let engine := { engine with pointer }
  match outcome with
  | .click .primary position => engine.click position
  | .click .secondary position => (false, engine.rightClick position)
  | _ => (false, engine)

/-- The pointer leaves: the gesture is given up and nothing is hovered over. -/
def pointerLeave (engine : Engine R) : Bool × Engine R :=
  { engine with pointer := engine.pointer.cancel }.hover none

/-- Turns the wheel; positive notches zoom in around the pointer. -/
def wheel (engine : Engine R) (screen : Vec R) (notches : R) : Except Fault (Bool × Engine R) := do
  let settings := engine.config.camera
  let (changed, camera) ← engine.camera.zoom screen notches settings.zoomStep settings.minExtent
    settings.maxExtent
  pure (changed, { engine with camera })

/-- Whether all resources and outlines can be held. -/
def fits (engine : Engine R) : Bool :=
  engine.pool.fits && engine.scene.fits

/-- The engine, unless it has something too large to be held. -/
def checked (engine : Engine R) : Except Fault (Engine R) :=
  if engine.fits then .ok engine else .error .oversized

end Engine

/-! ## Inspection -/

namespace Inspect

/-- A named value inside a longer description. -/
def field (name value : String) : String :=
  name ++ ": " ++ value

/-- A description with named values. -/
def record (title : String) (fields : List String) : String :=
  title ++ " \x7b " ++ String.intercalate ", " fields ++ " \x7d"

def single (x : Float32) : String :=
  Decimal.Style.inspected.single x

def vec (point : Vec Float32) : String :=
  record "Vec2" [field "x" (single point.x), field "y" (single point.y)]

def camera (camera : Camera Float32) : String :=
  record "OrthoCamera" [
    field "left" (single camera.left), field "right" (single camera.right),
    field "top" (single camera.top), field "bottom" (single camera.bottom),
    field "viewport" (vec camera.viewport)]

def perspective : Perspective → String
  | .technical => "Technical"
  | .architecture => "Architecture"

end Inspect

/-- The engine as shown for inspection. -/
def Engine.inspect (engine : Engine Float32) : String :=
  Inspect.record "DiagramEngine" [
    Inspect.field "perspective" (Inspect.perspective engine.registry.perspective),
    Inspect.field "nodes" (toString engine.registry.nodeCount),
    Inspect.field "edges" (toString engine.registry.edgeCount),
    Inspect.field "camera" (Inspect.camera engine.camera),
    Inspect.field "sequence" (if engine.isSequence then "true" else "false")]

end CodeAtlas
