import CodeAtlas.Viewer.Basic

/-!
# Panels

What stands on the panels of the viewer, from the status line to the context
menu, and what pressing it does.
-/

namespace CodeAtlas

/-- What pressing something on a panel does. -/
inductive Press where
  | nothing
  | request (action : Action)
  /-- Folds or unfolds the list of recent payloads. -/
  | foldRecent
  | flipSourcePanel
  /-- Closes the context menu and may ask for something. -/
  | closeMenu (action : Option Action)

/-- A text on a panel. -/
structure PanelItem where
  text : String
  press : Press := .nothing

namespace Toggle

/-- What the switch of a toggle is called. -/
def caption : Toggle → String
  | publicMembers => "Public"
  | privateMembers => "Private / protected"
  | constructors => "Constructors"
  | arguments => "Arguments"

end Toggle

namespace MethodSpan

/-- The lines of a method, as far as they are known. -/
def lines (span : MethodSpan) : String :=
  match span.startLine, span.endLine with
  | some first, some last => toString first ++ "-" ++ toString last
  | some first, none => toString first
  | none, _ => "?"

end MethodSpan

namespace Viewer

variable {R : Type} [Scalar R]

def statusItems (viewer : Viewer R) : List PanelItem :=
  ⟨viewer.status, .nothing⟩ ::
    ⟨toString viewer.engine.registry.resourceCount ++ " resources", .nothing⟩ ::
    viewer.clicked.toList.map fun id => ⟨id, .nothing⟩

/-- The path field and the recent payloads. -/
def payloadItems (viewer : Viewer R) : List PanelItem :=
  let path := Text.trim viewer.pathInput
  let recent := viewer.settings.recentPayloads
  [⟨"Payload", .nothing⟩, ⟨viewer.pathInput, .nothing⟩,
    ⟨"Open", if path.isEmpty then .nothing else .request (.openPayload ⟨path⟩)⟩] ++
  (if recent.isEmpty then [] else [⟨"Recent", .foldRecent⟩]) ++
  (if viewer.recentUnfolded then
    recent.map fun path => ⟨path.text, .request (.openPayload path)⟩ else [])

def perspectiveItems (viewer : Viewer R) : List PanelItem :=
  ⟨"Perspective", .nothing⟩ ::
    [Perspective.technical, Perspective.architecture].map fun perspective =>
      ⟨perspective.name,
        if perspective = viewer.engine.registry.perspective then .nothing
        else .request (.setPerspective perspective)⟩

/-- The controls of a sequence diagram. -/
def sequenceItems (viewer : Viewer R) (view : SequenceView R) : List PanelItem :=
  [⟨"Sequence", .nothing⟩,
    ⟨toString view.lanes.length ++ " lanes, " ++ toString view.calls.length ++ " calls",
      .nothing⟩] ++
  (viewer.lastCall.toList.map fun call =>
    ⟨call.callerClassName ++ "." ++ call.callerName ++ " -> " ++ call.targetClassName ++ "." ++
      call.targetName ++ " (depth " ++ toString call.depth ++ ")", .nothing⟩) ++
  [⟨"Back to graph", .request .exitSequence⟩]

/-- The selected method, if it belongs to the class. -/
def selectedMethodOf (viewer : Viewer R) (node : ClassNode R) : Option Method :=
  (viewer.engine.interaction.selectedMethod.bind viewer.engine.registry.methods.get?).filter
    fun method => method.classId == node.id

/-- The controls of the selected class. -/
def classItems (viewer : Viewer R) (node : ClassNode R) : List PanelItem :=
  ⟨node.headerText, .nothing⟩ ::
  (Toggle.all.map fun toggle =>
    ⟨toggle.caption, .request (.setToggle node.id toggle (!node.toggles.get toggle))⟩) ++
  (match viewer.selectedMethodOf node with
    | none => []
    | some method =>
      [⟨"Method: " ++ method.displayName node.name, .nothing⟩,
        ⟨"Focus", .request (.focusMethod method.id)⟩,
        ⟨"Sequence", .request (.showSequence method.id)⟩]) ++
  (if node.focusedMethod.isSome then [⟨"Restore methods", .request (.restoreMethods node.id)⟩]
    else []) ++
  [⟨"Isolate", .request (.isolate node.id)⟩, ⟨"Delete", .request (.delete node.id)⟩]

/-- The controls of what is selected. -/
def selectionItems (viewer : Viewer R) : List PanelItem :=
  let state := viewer.engine.interaction
  match state.selectedClass.bind viewer.engine.registry.classes.get?, state.selectedNode with
  | some node, _ => viewer.classItems node
  | none, some id => [⟨"Selected: " ++ id, .nothing⟩, ⟨"Delete", .request (.delete id)⟩]
  | none, none => [⟨"Click a class to inspect it.", .nothing⟩]

/-- The panel on the left. -/
def sideItems (viewer : Viewer R) : List PanelItem :=
  viewer.payloadItems ++ viewer.perspectiveItems ++
  (match viewer.engine.sequence? with
    | some view => viewer.sequenceItems view
    | none => viewer.selectionItems) ++
  [⟨"Fit", .request .fit⟩, ⟨"Clear", .request .clear⟩, ⟨"Show source", .flipSourcePanel⟩]

/-- The panel on the right. -/
def sourceItems (viewer : Viewer R) : List PanelItem :=
  let texts := match viewer.engine.selectedSource with
    | none => ["No class selected."]
    | some view =>
      view.className :: view.methods.flatMap (fun span : MethodSpan => [span.name, span.lines]) ++
        [view.source.getD "No source attached."]
  texts.map fun text => ⟨text, .nothing⟩

def menuItems (viewer : Viewer R) (menu : ContextMenu R) : List PanelItem :=
  let registry := viewer.engine.registry
  let choice (text : String) (action : Action) : PanelItem := ⟨text, .closeMenu (some action)⟩
  let onMap (items : List PanelItem) (shown : Bool) : List PanelItem :=
    if shown && !viewer.engine.isSequence then items else []
  ⟨menu.id, .nothing⟩ :: (menu.labels.map fun label => ⟨label, .nothing⟩) ++
  onMap [choice "Show sequence" (.showSequence menu.id),
    choice "Focus method" (.focusMethod menu.id)] (registry.methods.get? menu.id).isSome ++
  onMap [choice "Isolate" (.isolate menu.id),
    choice "Restore methods" (.restoreMethods menu.id)] (registry.classes.get? menu.id).isSome ++
  [choice "Delete" (.delete menu.id), ⟨"Close", .closeMenu none⟩]

/-- Everything that stands on the panels, in the order in which it is drawn. -/
def items (viewer : Viewer R) : List PanelItem :=
  viewer.statusItems ++ viewer.sideItems ++
  (if viewer.settings.showSourcePanel then viewer.sourceItems else []) ++
  (match viewer.menu with
    | some menu => viewer.menuItems menu
    | none => [])

end Viewer

end CodeAtlas
