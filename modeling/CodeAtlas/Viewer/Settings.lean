import CodeAtlas.Config.Read
import CodeAtlas.Event
import CodeAtlas.Json.Document

/-!
# Settings of the viewer

What the viewer remembers between runs: the perspective, the switches of new
classes, the panels, and the payloads that were opened lately.  Settings that
cannot be read are the standard ones.
-/

namespace CodeAtlas

structure ViewerSettings (R : Type) where
  perspective : Perspective
  /-- The switches that new classes start with. -/
  members : Toggles
  uiScale : R
  showSourcePanel : Bool
  sidePanelWidth : R
  lastPayload : Option PathName
  engineConfig : Option PathName
  /-- The payloads opened lately, the last one first. -/
  recentPayloads : List PathName

namespace ViewerSettings

/-- The settings of the first run. -/
def standard {R : Type} [Scalar R] : ViewerSettings R where
  perspective := .technical
  members := {}
  uiScale := 1.0
  showSourcePanel := true
  sidePanelWidth := 220.0
  lastPayload := none
  engineConfig := none
  recentPayloads := []

/-- How many payloads are remembered. -/
def recentLimit : Nat := 8

/-- Remembers a payload that was opened: it comes first and only once. -/
def remember {R : Type} (settings : ViewerSettings R) (path : PathName) : ViewerSettings R :=
  { settings with
    recentPayloads :=
      (path :: settings.recentPayloads.filter fun other => !other.same path).take recentLimit
    lastPayload := some path }

/-- Whether two paths that may be missing name the same place. -/
def samePath? : Option PathName → Option PathName → Bool
  | none, none => true
  | some a, some b => a.same b
  | _, _ => false

/-- Whether two lists of paths name the same places in the same order. -/
def samePaths : List PathName → List PathName → Bool
  | [], [] => true
  | a :: as, b :: bs => a.same b && samePaths as bs
  | _, _ => false

/-- Whether two settings agree, paths by the places they name. -/
def same {R : Type} [BEq R] (a b : ViewerSettings R) : Bool :=
  a.perspective == b.perspective && a.members == b.members && a.uiScale == b.uiScale &&
    a.showSourcePanel == b.showSourcePanel && a.sidePanelWidth == b.sidePanelWidth &&
    samePath? a.lastPayload b.lastPayload && samePath? a.engineConfig b.engineConfig &&
    samePaths a.recentPayloads b.recentPayloads

/-- How settings are read. -/
def schema : Json.Schema (ViewerSettings Float32) where
  title := "struct ViewerSettings"
  start := standard
  fields := [
    .defaulted "perspective" Perspective.decoder fun value all => { all with perspective := value },
    .defaulted "members" Toggles.schema.decoder fun value all => { all with members := value },
    .defaulted "ui_scale" .single fun value all => { all with uiScale := value },
    .defaulted "show_source_panel" .boolean fun value all =>
      { all with showSourcePanel := value },
    .defaulted "side_panel_width" .single fun value all => { all with sidePanelWidth := value },
    .defaulted "last_payload" (.optional PathName.decoder) fun value all =>
      { all with lastPayload := value },
    .defaulted "engine_config" (.optional PathName.decoder) fun value all =>
      { all with engineConfig := value },
    .defaulted "recent_payloads" (.list PathName.decoder) fun value all =>
      { all with recentPayloads := value }]

/-- The settings in a file; the standard ones if there is no file, or it is no
text, or it cannot be read. -/
def load (file : Option (List Text.Piece)) : ViewerSettings Float32 :=
  match (file.filter fun text => !text.any Text.Piece.isStray).map schema.decoder.run with
  | some (.ok settings) => settings
  | _ => standard

/-- A path that may be missing, as it is saved. -/
def pathDocument : Option PathName → Json.Document
  | some path => .string path.text
  | none => .null

def document (settings : ViewerSettings Float32) : Json.Document :=
  .record [
    ("perspective", .string settings.perspective.name),
    ("members", .record [
      ("show_public", .boolean settings.members.showPublic),
      ("show_private", .boolean settings.members.showPrivate),
      ("show_constructors", .boolean settings.members.showConstructors),
      ("show_arguments", .boolean settings.members.showArguments)]),
    ("ui_scale", .single settings.uiScale),
    ("show_source_panel", .boolean settings.showSourcePanel),
    ("side_panel_width", .single settings.sidePanelWidth),
    ("last_payload", pathDocument settings.lastPayload),
    ("engine_config", pathDocument settings.engineConfig),
    ("recent_payloads", .list (settings.recentPayloads.map fun path => .string path.text))]

/-- The text that is saved. -/
def saved (settings : ViewerSettings Float32) : String :=
  settings.document.pretty

end ViewerSettings

end CodeAtlas
