import CodeAtlas.Report.Diagram
import CodeAtlas.Viewer.Session

/-!
# Reports of the viewer

The settings, the state and the panels of the viewer as documents.
-/

namespace CodeAtlas.Report

open CodeAtlas.Json (Document)

def path (value : PathName) : Document :=
  text value.text

/-- The settings that a user can see. -/
def settingsFields (value : ViewerSettings Float32) : List (String × Document) :=
  [("perspective", text value.perspective.name),
    ("members", toggles value.members),
    ("show_source_panel", bool value.showSourcePanel),
    ("last_payload", opt path value.lastPayload),
    ("engine_config", opt path value.engineConfig),
    ("recent", list path value.recentPayloads)]

/-- All settings. -/
def settings (value : ViewerSettings Float32) : Document :=
  .record (settingsFields value ++
    [("ui_scale", scalar value.uiScale), ("side_panel_width", scalar value.sidePanelWidth)])

/-- The characters in front of the first colon that a blank follows. -/
def beforeColon : List Char → List Char
  | [] => []
  | ':' :: ' ' :: _ => []
  | c :: rest => c :: beforeColon rest

/-- A text on a panel.  A message on a payload that cannot be understood is
given without its cause. -/
def panelText (value : String) : String :=
  if "parsing payload ".toList.isPrefixOf value.toList then
    String.ofList (beforeColon value.toList)
  else value

/-- The texts on the panels. -/
def panels (value : Viewer Float32) : Document :=
  list (fun item : PanelItem => text (panelText item.text)) value.items

/-- Numbers in rising order, each once. -/
def idSet (ids : List ResourceId) : Document :=
  list nat (ids.eraseDups.mergeSort fun a b => a ≤ b)

/-- A context menu.  Its place is known only until the canvas has been drawn,
since the window decides where the canvas is. -/
def menu (viewer : Viewer Float32) (value : ContextMenu Float32) : Document :=
  .record [
    ("id", text value.id),
    ("labels", list text value.labels),
    ("pos", if viewer.origin.x == 0.0 then vec value.position else .null)]

/-- The switches of the selected class. -/
def selectedToggles (engine : Engine Float32) : Document :=
  opt (fun node : ClassNode Float32 => toggles node.toggles)
    (engine.interaction.selectedClass.bind engine.registry.classes.get?)

def mode (engine : Engine Float32) : Document :=
  text (if engine.isSequence then "sequence" else "graph")

def viewer (value : Viewer Float32) : Document :=
  let registry := value.engine.registry
  .record [
    ("status", text (panelText value.status)),
    ("clicked", opt text value.clicked),
    ("last_call", opt call value.lastCall),
    ("menu", opt (menu value) value.menu),
    ("input", text value.pathInput),
    ("payload", opt (fun payload : Payload =>
      list nat [payload.nodes.length, payload.relationships.length]) value.payload),
    ("needs_fit", bool value.needsFit),
    ("inside", bool value.pointerInside),
    ("textures", idSet value.textures.ids),
    ("settings", .record (settingsFields value.settings)),
    ("perspective", text registry.perspective.name),
    ("mode", mode value.engine),
    ("interaction", interaction value.engine.interaction),
    ("n", list nat [registry.nodeCount, registry.edgeCount, registry.resourceCount]),
    ("toggles", selectedToggles value.engine)]

def viewChange : ViewChange → Document
  | .closer => text "in"
  | .farther => text "out"
  | .moved => text "moved"
  | .same => text "same"

end CodeAtlas.Report
