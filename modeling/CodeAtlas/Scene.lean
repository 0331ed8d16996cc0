import CodeAtlas.Hit
import CodeAtlas.Registry.Placement
import CodeAtlas.Sequence.View

/-!
# Scenes and frames

A scene holds what is drawn and what can be picked, and is built anew after
every change of structure.  Hover and selection do not touch it: colours are
chosen when a frame is asked for.
-/

namespace CodeAtlas

/-- What is drawn. -/
inductive DrawKind (R : Type) where
  | rect (area : Rect R)
  | polygon (points : List (Vec R))
  | polyline (points : List (Vec R)) (dashed : Bool)
  /-- A label picture stretched over a rectangle. -/
  | label (resource : ResourceId) (area : Rect R)

namespace DrawKind

def isLabel {R : Type} : DrawKind R → Bool
  | label _ _ => true
  | _ => false

end DrawKind

/-- A part of a scene. -/
structure Primitive (R : Type) where
  role : Role
  kind : DrawKind R
  base : Paint R
  /-- Shape and height for picking, if the part can be picked. -/
  pick : Option (Shape R × R)

/-- A part of a frame, in its final colours. -/
structure DrawItem (R : Type) where
  role : Role
  kind : DrawKind R
  paint : Paint R

variable {R : Type} [Scalar R]

/-- Everything that is needed to paint. -/
structure Frame (R : Type) where
  /-- The visible part of the world. -/
  camera : Rect R
  /-- Its size in pixels. -/
  viewport : Vec R
  background : Color
  items : List (DrawItem R)

namespace Frame

/-- Pixels per world unit. -/
def scale (frame : Frame R) : R :=
  if 0.0 < frame.camera.width then frame.viewport.x / frame.camera.width else 1.0

/-- The pixel position of a world point. -/
def toScreen (frame : Frame R) (world : Vec R) : Vec R :=
  ⟨(world.x - frame.camera.min.x) * frame.scale, (world.y - frame.camera.min.y) * frame.scale⟩

def rectToScreen (frame : Frame R) (rect : Rect R) : Rect R :=
  ⟨frame.toScreen rect.min, frame.toScreen rect.max⟩

/-- The labels that the frame shows. -/
def labels (frame : Frame R) : List ResourceId :=
  frame.items.filterMap fun item => match item.kind with
    | .label resource _ => some resource
    | _ => none

end Frame

/-- What is drawn and picked, in drawing order. -/
structure Scene (R : Type) where
  primitives : List (Primitive R) := []

namespace Scene

/-! ## Heights for picking -/

def nodeElevation : R := 0.0
def headerElevation : R := 1.0
def rowElevation : R := 2.0
def laneHeaderElevation : R := 2.0
def callElevation : R := 3.0

/-- Where a label stands in a rectangle. -/
inductive Align where
  | center
  | left
deriving DecidableEq, Repr

/-- The label of a part, if there is a live one. -/
def label (pool : Pool R) (role : Role) (resource : Option ResourceId) (within : Rect R)
    (align : Align) : List (Primitive R) :=
  match resource with
  | none => []
  | some resource =>
    match pool.label? resource with
    | none => []
    | some bitmap =>
      let size : Vec R := bitmap.size
      let center := within.center
      let left := match align with
        | .center => center.x - size.x * 0.5
        | .left => within.min.x
      let area : Rect R := .ofPosSize ⟨left, center.y - size.y * 0.5⟩ size
      [⟨role, .label resource area, .invisible, none⟩]

/-- The outline of a box where it stands, or a new one if it has none. -/
def outlineAt (pool : Pool R) (outline : Option ResourceId) (rect : Rect R)
    (metrics : NodeMetrics R) : List (Vec R) :=
  match outline.bind pool.shape? with
  | some points => points.map fun point => point + rect.min
  | none => Outline.rounded rect metrics.cornerRadius metrics.cornerSegments

/-- The last two points of a line. -/
def lastTwo? {α : Type} (points : List α) : Option (α × α) :=
  match points.reverse with
  | last :: previous :: _ => some (previous, last)
  | _ => none

/-- The line of an edge and its arrowhead. -/
def edge (registry : Registry R) (edge : Edge) : List (Primitive R) :=
  match registry.edgePath edge with
  | none => []
  | some points =>
    let style : EdgeStyle R := edge.kind.style
    let line : Primitive R :=
      ⟨.edge edge.id, .polyline points style.dashed, .strokeOnly ⟨style.color, style.width⟩, none⟩
    match style.arrowHead, lastTwo? points with
    | true, some (start, tip) =>
      [line, ⟨.edge edge.id, .polygon (arrowhead tip start 10.0 8.0), .fillOnly style.color, none⟩]
    | _, _ => [line]

/-- The box of a standalone node. -/
def standalone (registry : Registry R) (node : StandaloneNode R) : List (Primitive R) :=
  let style := node.kind.style
  ⟨.standalone node.id, .polygon (outlineAt registry.pool node.outline node.rect registry.metrics),
      .filled style.fill ⟨style.border, 1.0⟩, some (.rect node.rect, nodeElevation)⟩ ::
    label registry.pool (.standalone node.id) node.label node.rect .center

/-- The header of a class. -/
def classHeader (registry : Registry R) (node : ClassNode R) : List (Primitive R) :=
  match registry.headerRect node.id with
  | none => []
  | some header =>
    ⟨.classHeader node.id,
        .polygon (Outline.rounded header registry.metrics.cornerRadius
          registry.metrics.cornerSegments),
        .fillOnly .classHeader, some (.rect header, headerElevation)⟩ ::
      label registry.pool (.classHeader node.id) node.headerLabel header .center

/-- The drawn part of a row: all of it but a unit on either side. -/
def insetRow (row : Rect R) : Rect R :=
  ⟨⟨row.min.x + 1.0, row.min.y⟩, ⟨row.max.x - 1.0, row.max.y⟩⟩

/-- The row of a method. -/
def methodRow (registry : Registry R) (node : ClassNode R) (method : Method) :
    List (Primitive R) :=
  match registry.methodRowRect method.id with
  | none => []
  | some row =>
    let row := insetRow row
    ⟨.methodRow node.id method.id, .rect row, .fillOnly .methodRow,
        some (.rect row, rowElevation)⟩ ::
      label registry.pool (.methodRow node.id method.id) method.label row .left

/-- The box of a class with its header and rows. -/
def classBox (registry : Registry R) (node : ClassNode R) : List (Primitive R) :=
  ⟨.classBackground node.id,
      .polygon (outlineAt registry.pool node.outline node.rect registry.metrics),
      .filled .classBody ⟨.classBorder, 1.0⟩, some (.rect node.rect, nodeElevation)⟩ ::
    (classHeader registry node ++
      (registry.visibleMethods node.id).flatMap (methodRow registry node))

/-- The map: edges below standalone boxes below classes. -/
def ofRegistry (registry : Registry R) : Scene R :=
  ⟨registry.edges.items.flatMap (edge registry) ++
    registry.standalone.items.flatMap (standalone registry) ++
    registry.classes.items.flatMap (classBox registry)⟩

/-- A lane with its header. -/
def lane (pool : Pool R) (index : Nat) (lane : Lane R) : List (Primitive R) :=
  ⟨.lifeline index, .polyline [lane.lifeline.1, lane.lifeline.2] true,
      .strokeOnly ⟨.lifeline, 1.0⟩, none⟩ ::
    ⟨.laneHeader index lane.classId, .rect lane.header, .filled .laneHeader ⟨.classBorder, 1.0⟩,
      some (.rect lane.header, laneHeaderElevation)⟩ ::
    label pool (.laneHeader index lane.classId) (some lane.label) lane.header .center

/-- The arrow of a call with its label. -/
def callArrow (halfWidth : R) (arrow : CallArrow R) : List (Primitive R) :=
  [⟨.callArrow arrow.index, .polyline arrow.path false, .strokeOnly ⟨.callArrow, 1.5⟩,
      some (.polyline arrow.path halfWidth, callElevation)⟩,
    ⟨.callArrow arrow.index, .polygon arrow.head, .fillOnly .callArrow, none⟩,
    ⟨.callArrow arrow.index, .label arrow.label arrow.labelRect, .invisible, none⟩]

/-- A sequence diagram. -/
def ofSequence (view : SequenceView R) (pool : Pool R) : Scene R :=
  ⟨(view.lanes.zipIdx.flatMap fun (item, index) => lane pool index item) ++
    view.arrows.flatMap (callArrow view.hitHalfWidth)⟩

/-- The regions that can be picked, in drawing order. -/
def hitRegions (scene : Scene R) : List (HitRegion R) :=
  scene.primitives.filterMap fun primitive =>
    primitive.pick.map fun (shape, elevation) => ⟨primitive.role, shape, elevation⟩

/-- The number of parts. -/
def size (scene : Scene R) : Nat :=
  scene.primitives.length

def isEmpty (scene : Scene R) : Bool :=
  scene.primitives.isEmpty

/-- Whether all its outlines can be held. -/
def fits (scene : Scene R) : Bool :=
  scene.primitives.all fun primitive => match primitive.kind with
    | .polygon points => !points.isEmpty
    | _ => true

/-- The scene, unless it has an outline too large to be held. -/
def checked (scene : Scene R) : Except Fault (Scene R) :=
  if scene.fits then .ok scene else .error .oversized

/-- The part of a frame that a part of the scene becomes; what is neither
filled nor outlined is left out unless it is a label. -/
def item? (state : Interaction) (primitive : Primitive R) : Option (DrawItem R) :=
  let paint := Paint.resolve primitive.role primitive.base state
  if primitive.kind.isLabel || paint.isVisible then
    some ⟨primitive.role, primitive.kind, paint⟩
  else none

/-- The frame that a camera sees. -/
def frame (scene : Scene R) (camera : Camera R) (state : Interaction) : Frame R :=
  ⟨camera.bounds, camera.viewport, .background, scene.primitives.filterMap (item? state)⟩

end Scene

end CodeAtlas
