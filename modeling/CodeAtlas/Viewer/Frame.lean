import CodeAtlas.Viewer.Panel

/-!
# Frames of the viewer

The viewer lives in frames.  In each, the panels are drawn and may be pressed,
the canvas takes the pointer's input and draws the diagram, the events of the
diagram are dispatched, the context menu is drawn, and at last everything the
user has asked for is done.
-/

namespace CodeAtlas

/-- What the window makes of a viewer that is drawn in it. -/
structure Window (R : Type) where
  /-- The width that the panel on the left gets. -/
  panelWidth : Viewer R → R
  /-- The part of the window that the panels, once drawn, leave to the canvas. -/
  canvas : Viewer R → Rect R
  /-- Whether the picture of a label can be uploaded. -/
  uploads : LabelBitmap → Bool

/-- Input of the pointer.  Positions are in the window; a button that the
diagram does not know is missing. -/
inductive PointerInput (R : Type) where
  | moved (position : Vec R)
  | pressed (position : Vec R) (button : Option PointerButton)
  | released (position : Vec R) (button : Option PointerButton)
  /-- The pointer has left the window. -/
  | gone

/-- The input of a frame. -/
structure FrameInput (R : Type) where
  window : Window R
  pointer : List (PointerInput R) := []
  /-- Where the pointer is and by how many points the wheel was turned. -/
  scroll : Option (Vec R × R) := none
  escape : Bool := false
  /-- What was pressed on the panels. -/
  press : Press := .nothing

namespace Viewer

variable {R : Type} [Scalar R]

/-- How far the wheel scrolls at a notch. -/
def pointsPerNotch : R := 50.0

/-- Hands a pointer's input to the diagram, for which positions count from the
corner of the canvas.  No button goes down while a menu is open. -/
def forward (canvas : Rect R) (viewer : Viewer R) : PointerInput R → Viewer R
  | .moved position =>
    if canvas.contains position then
      { viewer with
        pointerInside := true
        engine := (viewer.engine.pointerMove (position - canvas.min)).2 }
    else if viewer.pointerInside then
      { viewer with pointerInside := false, engine := viewer.engine.pointerLeave.2 }
    else viewer
  | .pressed position (some button) =>
    if canvas.contains position && viewer.menu.isNone then
      { viewer with engine := viewer.engine.pointerDown (position - canvas.min) button }
    else viewer
  | .released position (some button) =>
    { viewer with engine := (viewer.engine.pointerUp (position - canvas.min) button).2 }
  | .pressed _ none | .released _ none => viewer
  | .gone => { viewer with pointerInside := false, engine := viewer.engine.pointerLeave.2 }

/-- Turns the wheel over the canvas. -/
def turnWheel (canvas : Rect R) (viewer : Viewer R) : Option (Vec R × R) → Except Fault (Viewer R)
  | none => .ok viewer
  | some (position, points) => do
      if (points ≤ 0.0 ∧ 0.0 ≤ points) ∨ !canvas.contains position then pure viewer
      else
        let (_, engine) ← viewer.engine.wheel (position - canvas.min) (points / pointsPerNotch)
        pure { viewer with engine }

/-- Uploads the pictures of the labels in a frame that have no copy yet, unless
one cannot be uploaded, and drops those whose labels are gone. -/
def upload (uploads : LabelBitmap → Bool) (viewer : Viewer R) (frame : Frame R) :
    Except Fault (Viewer R) :=
  let pool := viewer.engine.pool
  let fresh := frame.labels.filter fun id => (viewer.textures.get? id).isNone
  if (fresh.filterMap pool.label?).all uploads then
    .ok { viewer with textures := (viewer.textures.drawAll pool frame.labels).prune pool }
  else .error .oversized

/-- Fits the diagram into the canvas. -/
def fitCanvas (canvas : Rect R) (viewer : Viewer R) : Viewer R :=
  let engine := (viewer.engine.resize canvas.width canvas.height).2
  { viewer with
    engine := if viewer.needsFit then engine.fitToContent.2 else engine
    needsFit := false }

/-- Draws the canvas. -/
def drawCanvas (viewer : Viewer R) (input : FrameInput R) : Except Fault (Viewer R) := do
  let canvas := input.window.canvas viewer
  let viewer ← (input.pointer.foldl (forward canvas) (viewer.fitCanvas canvas)).turnWheel canvas
    input.scroll
  { viewer with origin := canvas.min }.upload input.window.uploads viewer.engine.frame

/-- Draws the panels; what was pressed may become a request. -/
def drawPanels (viewer : Viewer R) (input : FrameInput R) : List Action × Viewer R :=
  let viewer := { viewer with
    settings := { viewer.settings with sidePanelWidth := input.window.panelWidth viewer } }
  match input.press with
  | .request action => ([action], viewer)
  | .foldRecent => ([], { viewer with recentUnfolded := !viewer.recentUnfolded })
  | .flipSourcePanel =>
    ([], { viewer with
      settings := { viewer.settings with showSourcePanel := !viewer.settings.showSourcePanel } })
  | .nothing | .closeMenu _ => ([], viewer)

/-- Draws the context menu, which closes when something on it is pressed and at
the escape key. -/
def drawMenu (viewer : Viewer R) (input : FrameInput R) : List Action × Viewer R :=
  match viewer.menu, input.press with
  | none, _ => ([], viewer)
  | some _, .closeMenu action => (action.toList, { viewer with menu := none })
  | some _, _ => ([], if input.escape then { viewer with menu := none } else viewer)

/-- One frame.  Nothing is left that is too large to be held. -/
def frame (files : FileReader) (viewer : Viewer R) (input : FrameInput R) :
    Except Fault (Viewer R) := do
  let leaving :=
    if input.escape && viewer.menu.isNone && viewer.engine.isSequence then [Action.exitSequence]
    else []
  let (asked, viewer) := viewer.drawPanels input
  let viewer ← viewer.drawCanvas input
  let (chosen, viewer) := viewer.dispatch.drawMenu input
  ((leaving ++ asked ++ chosen).foldl (apply files) viewer).checked

/-- Several frames. -/
def frames (files : FileReader) (viewer : Viewer R) (inputs : List (FrameInput R)) :
    Except Fault (Viewer R) :=
  inputs.foldlM (frame files) viewer

/-- Three frames without input, after which no event waits any more. -/
def settle (files : FileReader) (window : Window R) (viewer : Viewer R) :
    Except Fault (Viewer R) :=
  viewer.frames files (List.replicate 3 { window })

end Viewer

end CodeAtlas
