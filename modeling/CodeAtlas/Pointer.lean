import CodeAtlas.Geometry.Vec

/-!
# Pointer gestures

A press stays a possible click until the pointer has travelled further than a
threshold; from then on it is a drag.
-/

namespace CodeAtlas

inductive PointerButton where
  | primary
  | secondary
  | middle
deriving DecidableEq, Repr, Inhabited

namespace PointerButton

def name : PointerButton → String
  | primary => "Primary"
  | secondary => "Secondary"
  | middle => "Middle"

end PointerButton

/-- How far a gesture has come. -/
inductive PointerPhase (R : Type) where
  | idle
  /-- A button is held and the travel is within the threshold. -/
  | pressed (button : PointerButton) (origin last : Vec R) (travelled : R)
  | dragging (button : PointerButton) (last : Vec R)
deriving Inhabited

/-- What a pointer event amounts to. -/
inductive PointerOutcome (R : Type) where
  | nothing
  /-- Movement with no button held. -/
  | hover (position : Vec R)
  /-- A drag by so many pixels. -/
  | pan (button : PointerButton) (delta : Vec R)
  | click (button : PointerButton) (position : Vec R)
  | dragEnd
deriving Inhabited

/-- Follows the pointer. -/
structure PointerTracker (R : Type) where
  phase : PointerPhase R
  dragThreshold : R

namespace PointerTracker

variable {R : Type} [Scalar R]

def create (dragThreshold : R) : PointerTracker R :=
  ⟨.idle, dragThreshold⟩

def isDragging (tracker : PointerTracker R) : Bool :=
  match tracker.phase with
  | .dragging _ _ => true
  | _ => false

/-- A button goes down; while one is held, others do not count. -/
def down (tracker : PointerTracker R) (position : Vec R) (button : PointerButton) :
    PointerTracker R :=
  match tracker.phase with
  | .idle => { tracker with phase := .pressed button position position 0.0 }
  | _ => tracker

/-- The pointer moves.  The movement that starts a drag is the whole way from
where the button went down. -/
def move (tracker : PointerTracker R) (position : Vec R) :
    PointerOutcome R × PointerTracker R :=
  match tracker.phase with
  | .idle => (.hover position, tracker)
  | .pressed button origin last travelled =>
    let travelled := travelled + (position - last).length
    if tracker.dragThreshold < travelled then
      (.pan button (position - origin), { tracker with phase := .dragging button position })
    else
      (.nothing, { tracker with phase := .pressed button origin position travelled })
  | .dragging button last =>
    (.pan button (position - last), { tracker with phase := .dragging button position })

/-- A button goes up; only the button that went down first counts. -/
def up (tracker : PointerTracker R) (position : Vec R) (button : PointerButton) :
    PointerOutcome R × PointerTracker R :=
  match tracker.phase with
  | .idle => (.nothing, tracker)
  | .pressed held _ _ _ =>
    if held = button then (.click button position, { tracker with phase := .idle })
    else (.nothing, tracker)
  | .dragging held _ =>
    if held = button then (.dragEnd, { tracker with phase := .idle }) else (.nothing, tracker)

/-- Gives the gesture up. -/
def cancel (tracker : PointerTracker R) : PointerTracker R :=
  { tracker with phase := .idle }

end PointerTracker

end CodeAtlas
