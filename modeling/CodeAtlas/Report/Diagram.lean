import CodeAtlas.Engine.Basic
import CodeAtlas.Report.Value

/-!
# Reports of the diagram

Settings, payloads, the registry, scenes, frames and sequence diagrams as
documents.
-/

namespace CodeAtlas.Report

open CodeAtlas.Json (Document)

def toggles (value : Toggles) : Document :=
  list (fun toggle => bool (value.get toggle)) Toggle.all

def interaction (state : Interaction) : Document :=
  .record [
    ("hovered", opt role state.hovered),
    ("class", opt text state.selectedClass),
    ("method", opt text state.selectedMethod),
    ("node", opt text state.selectedNode),
    ("call", opt nat state.selectedCall)]

def config (value : EngineConfig Float32) : Document :=
  let node := value.node
  let camera := value.camera
  let sequence := value.sequence
  .record [
    ("layout", list scalar [value.layout.horizontalGap, value.layout.verticalGap]),
    ("node", .list [
      scalar node.headerHeight, scalar node.rowHeight, scalar node.paddingX,
      scalar node.bottomPadding, scalar node.minWidth, scalar node.cornerRadius,
      nat node.cornerSegments, scalar node.standaloneHeight, scalar node.iconWidth]),
    ("text", .list [
      scalar value.text.fontSize, opt (fun path : PathName => text path.text) value.text.fontPath]),
    ("camera", list scalar [
      camera.zoomStep, camera.minExtent, camera.maxExtent, camera.fitMargin,
      camera.initialExtent]),
    ("interaction", list scalar [value.interaction.dragThreshold, value.interaction.hitHalfWidth]),
    ("sequence", list scalar [
      sequence.laneWidth, sequence.laneGap, sequence.headerHeight, sequence.rowHeight,
      sequence.selfLoopWidth, sequence.selfLoopHeight, sequence.arrowLength,
      sequence.arrowWidth]),
    ("members", toggles value.members)]

def node (value : Node) : Document :=
  .record [
    ("id", text value.id),
    ("labels", list text value.labels),
    ("kind", text value.kind.name),
    ("name", text value.displayName),
    ("props", list (fun (key, _) =>
      .list [text key, opt text (value.text? key), opt nat (value.number? key)]) value.properties)]

def relationship (value : Relationship) : Document :=
  .list [
    text value.id, text value.type, text value.kind.name, text value.source, text value.target,
    list (fun (key, _) => text key) value.properties]

def payload (value : Payload) : Document :=
  .record [
    ("nodes", list node value.nodes),
    ("relationships", list relationship value.relationships)]

def ingest (value : IngestReport) : Document :=
  .record [
    ("classes", nat value.classesAdded),
    ("methods", nat value.methodsAdded),
    ("standalone", nat value.standaloneAdded),
    ("edges", nat value.edgesAdded),
    ("dropped", nat value.edgesDropped),
    ("changed", bool value.changed)]

/-- The label in a slot: its number, text and size. -/
def label (pool : Pool Float32) (slot : Option ResourceId) : Document :=
  opt (fun id => .list (nat id :: match pool.label? id with
    | some bitmap => [text bitmap.text, nat bitmap.width, nat bitmap.height]
    | none => [.null, .null, .null])) slot

/-- The outline in a slot: its number and its number of points. -/
def outline (pool : Pool Float32) (slot : Option ResourceId) : Document :=
  opt (fun id => .list
    [nat id, opt (fun line : List (Vec Float32) => nat line.length) (pool.shape? id)]) slot

def method (registry : Registry Float32) (value : Method) : Document :=
  .record [
    ("id", text value.id),
    ("class_id", text value.classId),
    ("name", text value.name),
    ("ret", text value.returnType),
    ("params", text value.parameters),
    ("vis", text value.access.name),
    ("ctor", bool value.isConstructor),
    ("lines", .list [opt nat value.startLine, opt nat value.endLine]),
    ("labels", list text value.labels),
    ("visible", bool value.visible),
    ("label", label registry.pool value.label),
    ("row", opt rect (registry.methodRowRect value.id))]

def classNode (registry : Registry Float32) (value : ClassNode Float32) : Document :=
  .record [
    ("id", text value.id),
    ("name", text value.name),
    ("full_name", opt text value.fullName),
    ("kind", text value.kindLabel),
    ("header_text", text value.headerText),
    ("source", opt text value.sourceCode),
    ("labels", list text value.labels),
    ("method_ids", list text value.methods),
    ("methods", list (method registry) (registry.methodsOf value.id)),
    ("toggles", toggles value.toggles),
    ("focused", opt text value.focusedMethod),
    ("size", vec value.size),
    ("position", vec value.position),
    ("rect", rect value.rect),
    ("header_label", label registry.pool value.headerLabel),
    ("outline", outline registry.pool value.outline)]

def standaloneNode (registry : Registry Float32) (value : StandaloneNode Float32) : Document :=
  .record [
    ("id", text value.id),
    ("name", text value.name),
    ("kind", text value.kind.name),
    ("labels", list text value.labels),
    ("size", vec value.size),
    ("rect", rect value.rect),
    ("label", label registry.pool value.label),
    ("outline", outline registry.pool value.outline)]

def edge (registry : Registry Float32) (value : Edge) : Document :=
  .list [
    text value.id, text value.kind.name, text value.source, text value.target,
    opt nat value.geometry, opt points (registry.edgePath value)]

/-- Everything on the map. -/
def registry (value : Registry Float32) : Document :=
  .record [
    ("perspective", text value.perspective.name),
    ("bounds", opt rect value.bounds),
    ("classes", list (classNode value) value.classes.items),
    ("standalone", list (standaloneNode value) value.standalone.items),
    ("edges", list (edge value) value.edges.items)]

/-- What an id names. -/
def lookup (registry : Registry Float32) (id : NodeId) : Document :=
  .record [
    ("contains", bool (registry.containsNode id)),
    ("labels", opt (list text) (registry.labelsOf id)),
    ("is", list bool [(registry.classes.get? id).isSome, (registry.methods.get? id).isSome,
      (registry.standalone.get? id).isSome]),
    ("edge", bool (registry.edges.get? id).isSome),
    ("header", opt rect (registry.headerRect id)),
    ("row", opt rect (registry.methodRowRect id)),
    ("anchor", opt rect (registry.anchorRect id)),
    ("visible", list (fun method : Method => text method.id) (registry.visibleMethods id))]

def source (value : SourceView) : Document :=
  .record [
    ("class_id", text value.classId),
    ("class_name", text value.className),
    ("source", opt text value.source),
    ("methods", list (fun span : MethodSpan => .list [
      text span.methodId, text span.name, opt nat span.startLine, opt nat span.endLine,
      bool span.visible]) value.methods)]

def layoutNode (value : LayoutNode Float32) : Document :=
  .list [text value.id, scalar value.width, scalar value.height]

def layoutEdge (value : LayoutEdge) : Document :=
  .list [text value.source, text value.target, text value.kind.name]

def primitive (value : Primitive Float32) : Document :=
  .record [
    ("role", role value.role),
    ("kind", drawKind value.kind),
    ("base", paint value.base),
    ("pick", opt (fun (area, elevation) => .list [shape area, scalar elevation]) value.pick)]

def scene (value : Scene Float32) : Document :=
  .record [
    ("len", nat value.size),
    ("regions", nat value.hitRegions.length),
    ("primitives", list primitive value.primitives)]

def drawItem (value : DrawItem Float32) : Document :=
  .record [
    ("role", role value.role), ("kind", drawKind value.kind), ("paint", paint value.paint)]

def frame (value : Frame Float32) : Document :=
  .record [
    ("camera", rect value.camera),
    ("viewport", vec value.viewport),
    ("background", color value.background),
    ("scale", scalar value.scale),
    ("items", list drawItem value.items),
    ("labels", list nat value.labels)]

/-- The colours of a frame: what is drawn apart from labels. -/
def paints (value : Frame Float32) : Document :=
  list (fun item : DrawItem Float32 => .list [role item.role, paint item.paint])
    (value.items.filter fun item => !item.kind.isLabel)

def lane (value : Lane Float32) : Document :=
  .record [
    ("class_id", text value.classId),
    ("name", text value.name),
    ("header", rect value.header),
    ("lifeline", points [value.lifeline.1, value.lifeline.2]),
    ("label", nat value.label)]

def arrow (value : CallArrow Float32) : Document :=
  .record [
    ("index", nat value.index),
    ("lanes", list nat [value.fromLane, value.toLane]),
    ("loop", bool value.isLoop),
    ("path", points value.path),
    ("head", points value.head),
    ("label_rect", rect value.labelRect),
    ("label", nat value.label)]

/-- The parts of a sequence diagram. -/
def sequenceFields (value : SequenceView Float32) : List (String × Document) :=
  [("root", text value.rootId),
    ("lanes", list lane value.lanes),
    ("calls", list call value.calls),
    ("arrows", list arrow value.arrows),
    ("half_width", scalar value.hitHalfWidth),
    ("bounds", opt rect value.bounds),
    ("resources", list nat value.resources)]

end CodeAtlas.Report
