import CodeAtlas.Engine.Landmark
import CodeAtlas.Viewer.Frame

/-!
# Sessions

What a user does at the viewer, from the press of a button to a drag over the
canvas.  Before and after, the viewer settles.
-/

namespace CodeAtlas

/-- What the pointer does on the canvas. -/
inductive Gesture (R : Type) where
  | move
  | click (button : Option PointerButton)
  | drag (button : Option PointerButton) (offset : Vec R)
  | wheel (points : R)
  /-- The pointer moves off the canvas. -/
  | outside
  /-- The pointer leaves the window. -/
  | gone

namespace Gesture

variable {R : Type} [Scalar R]

/-- The frames of a gesture in a window, at a position on the canvas whose corner
is given. -/
def inputs (gesture : Gesture R) (window : Window R) (corner position : Vec R) :
    List (FrameInput R) :=
  let position := corner + position
  match gesture with
  | move => [{ window, pointer := [.moved position] }]
  | click button =>
    [{ window, pointer := [.moved position, .pressed position button] },
      { window, pointer := [.released position button] }]
  | drag button offset =>
    let target := position + offset
    [{ window, pointer := [.moved position, .pressed position button] },
      { window, pointer := [.moved target] },
      { window, pointer := [.released target button] }]
  | wheel points =>
    [{ window, pointer := [.moved position] }, { window, scroll := some (position, points) }]
  | outside => [{ window, pointer := [.moved (corner + ⟨-10.0, -10.0⟩)] }]
  | gone => [{ window, pointer := [.gone] }]

end Gesture

/-- How what is shown has changed. -/
inductive ViewChange where
  | closer
  | farther
  | moved
  | same
deriving DecidableEq, Repr

/-- How the view has changed from one camera to another, small changes apart. -/
def ViewChange.between {R : Type} [Scalar R] (before after : Camera R) : ViewChange :=
  if after.height < before.height * 0.999 then .closer
  else if before.height * 1.001 < after.height then .farther
  else if before.height * 0.001 < (after.center - before.center).length then .moved
  else .same

namespace Viewer

variable {R : Type} [Scalar R]

/-- Presses the first of the wanted items on the panels, or the last one, and
takes the pointer away.  Tells whether there is such an item. -/
def press (files : FileReader) (window : Window R) (viewer : Viewer R)
    (wanted : PanelItem → Bool) (last : Bool) : Except Fault (Bool × Viewer R) := do
  let viewer ← viewer.settle files window
  let found := viewer.items.filter wanted
  match if last then found.getLast? else found.head? with
  | none => pure (false, viewer)
  | some item =>
    let viewer ← viewer.frames files
      [{ window, press := item.press }, { window, pointer := [.gone] }]
    pure (true, ← viewer.settle files window)

/-- Presses the escape key. -/
def escape (files : FileReader) (window : Window R) (viewer : Viewer R) :
    Except Fault (Viewer R) := do
  let viewer ← viewer.settle files window
  let viewer ← viewer.frame files { window, escape := true }
  viewer.settle files window

/-- Makes a gesture on the canvas.  A landmark of the diagram is looked for
after everything has been brought into view; without it nothing is done. -/
def gesture (files : FileReader) (window : Window R) (viewer : Viewer R) (gesture : Gesture R)
    (place : Landmark R) (offset : Vec R) : Except Fault (Option ViewChange × Viewer R) := do
  let viewer ← viewer.settle files window
  let viewer := if place.isOnScreen then viewer else viewer.apply files .fit
  match viewer.engine.locate place offset with
  | none => pure (none, viewer)
  | some position =>
    let before := viewer.engine.camera
    let corner := (window.canvas viewer).min
    let viewer ← viewer.frames files (gesture.inputs window corner position)
    let viewer ← viewer.settle files window
    pure (some (.between before viewer.engine.camera), viewer)

end Viewer

end CodeAtlas
