import CodeAtlas.Model.Call

/-!
# Events

Data flows into the diagram through its operations; everything that flows out
is an event.  Events wait in a queue, oldest first, until they are taken.
-/

namespace CodeAtlas

/-- What the diagram tells its surroundings; positions are in pixels. -/
inductive Event (R : Type) where
  /-- A class or a method row was clicked. -/
  | nodeClicked (id : NodeId)
  /-- Something was clicked with the secondary button. -/
  | nodeRightClicked (id : NodeId) (labels : List String) (x y : R)
  /-- A lane header was clicked. -/
  | headerClicked (classId : NodeId)
  /-- A call arrow was clicked. -/
  | callArrowClicked (call : Call)
  | perspectiveChanged (perspective : Perspective)
  | sceneCleared
  | sequenceEntered (rootId : NodeId) (callCount : Nat)
  | sequenceExited
deriving Inhabited

namespace Perspective

/-- Reads a perspective by its name. -/
def decoder : Json.Decoder Perspective :=
  Json.Variant.decoder
    ([technical, architecture].map fun perspective => ⟨perspective.name, .bare perspective⟩)

end Perspective

namespace Event

/-- The content of a secondary click while it is read. -/
structure RightClick where
  id : NodeId := ""
  labels : List String := []
  x : Float32 := 0.0
  y : Float32 := 0.0

/-- How a secondary click is read. -/
def rightClickSchema : Json.Schema RightClick where
  title := "struct variant Event::NodeRightClicked"
  start := {}
  fields := [
    .required "id" .string fun value click => { click with id := value },
    .required "labels" (.list .string) fun value click => { click with labels := value },
    .required "x" .single fun value click => { click with x := value },
    .required "y" .single fun value click => { click with y := value }]

/-- Reads the content of an event that has a single field. -/
def loneField {α : Type} [Inhabited α] (event name : String) (decoder : Json.Decoder α) :
    Json.Decoder α :=
  Json.Schema.decoder
    ⟨"struct variant Event::" ++ event, default, [.required name decoder fun value _ => value]⟩

/-- The content of an entered sequence while it is read. -/
def enteredSchema : Json.Schema (NodeId × Nat) where
  title := "struct variant Event::SequenceEntered"
  start := ("", 0)
  fields := [
    .required "root_id" .string fun value entered => (value, entered.2),
    .required "call_count" .count fun value entered => (entered.1, value)]

/-- Reads an event. -/
def decoder : Json.Decoder (Event Float32) :=
  Json.Variant.decoder [
    ⟨"NodeClicked", .content ((loneField "NodeClicked" "id" .string).map nodeClicked)⟩,
    ⟨"NodeRightClicked", .content (rightClickSchema.decoder.map fun click =>
      nodeRightClicked click.id click.labels click.x click.y)⟩,
    ⟨"HeaderClicked", .content ((loneField "HeaderClicked" "class_id" .string).map headerClicked)⟩,
    ⟨"CallArrowClicked",
      .content ((loneField "CallArrowClicked" "call" Call.schema.decoder).map callArrowClicked)⟩,
    ⟨"PerspectiveChanged", .content
      ((loneField "PerspectiveChanged" "perspective" Perspective.decoder).map perspectiveChanged)⟩,
    ⟨"SceneCleared", .bare sceneCleared⟩,
    ⟨"SequenceEntered", .content (enteredSchema.decoder.map fun entered =>
      sequenceEntered entered.1 entered.2)⟩,
    ⟨"SequenceExited", .bare sequenceExited⟩]

end Event

/-- Events that wait to be taken, oldest first. -/
structure EventQueue (R : Type) where
  pending : List (Event R) := []
deriving Inhabited

namespace EventQueue

variable {R : Type}

/-- Adds an event behind all others. -/
def publish (queue : EventQueue R) (event : Event R) : EventQueue R :=
  ⟨queue.pending ++ [event]⟩

/-- Takes the oldest event. -/
def receive (queue : EventQueue R) : Option (Event R) × EventQueue R :=
  match queue.pending with
  | [] => (none, queue)
  | event :: rest => (some event, ⟨rest⟩)

/-- Takes all events, oldest first. -/
def drain (queue : EventQueue R) : List (Event R) × EventQueue R :=
  (queue.pending, ⟨[]⟩)

/-- Hands all events to a listener, oldest first. -/
def dispatch {σ : Type} (queue : EventQueue R) (handle : σ → Event R → σ) (listener : σ) :
    σ × EventQueue R :=
  (queue.pending.foldl handle listener, ⟨[]⟩)

end EventQueue

end CodeAtlas
