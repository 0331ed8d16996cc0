import CodeAtlas.Geometry.Rect

/-!
# The camera

An orthographic camera that looks straight down at the plane of the diagram.
Screen positions are in pixels from the upper left corner; world coordinates
grow in the same directions.
-/

namespace CodeAtlas

/-- Why an operation has no answer. -/
inductive Fault where
  /-- The limits of a clamp are out of order, or one is no number. -/
  | unorderedLimits
  /-- Something is too large to be held. -/
  | oversized
  /-- A whole number has more than 64 bits. -/
  | outOfRange
deriving DecidableEq, Repr, Inhabited

/-- A ray that goes straight down from a height. -/
structure Ray (R : Type) where
  origin : Vec R
  height : R

namespace Ray

variable {R : Type} [Scalar R]

/-- The ray from the height of the camera. -/
def straightDown (origin : Vec R) : Ray R :=
  ⟨origin, 1000.0⟩

/-- The way down to a plane, if the plane is not above the start. -/
def distanceToPlane (ray : Ray R) (z : R) : Option R :=
  let distance := ray.height - z
  if 0.0 ≤ distance then some distance else none

end Ray

/-- The part of the world that is visible, and the pixels it is shown on. -/
structure Camera (R : Type) where
  left : R
  right : R
  top : R
  bottom : R
  viewport : Vec R

namespace Camera

variable {R : Type} [Scalar R]

/-- A camera over the origin that shows the given height of the world. -/
def create (viewportWidth viewportHeight extent : R) : Camera R :=
  let viewport : Vec R := ⟨Scalar.max viewportWidth 1.0, Scalar.max viewportHeight 1.0⟩
  let halfHeight := extent * 0.5
  let halfWidth := halfHeight * viewport.x / viewport.y
  ⟨-halfWidth, halfWidth, -halfHeight, halfHeight, viewport⟩

def width (camera : Camera R) : R :=
  camera.right - camera.left

def height (camera : Camera R) : R :=
  camera.bottom - camera.top

def center (camera : Camera R) : Vec R :=
  ⟨(camera.left + camera.right) * 0.5, (camera.top + camera.bottom) * 0.5⟩

/-- The visible part of the world. -/
def bounds (camera : Camera R) : Rect R :=
  ⟨⟨camera.left, camera.top⟩, ⟨camera.right, camera.bottom⟩⟩

/-- Pixels per world unit from left to right. -/
def scale (camera : Camera R) : R :=
  camera.viewport.x / camera.width

/-- The camera over a centre with the given extents. -/
def centered (camera : Camera R) (center : Vec R) (width height : R) : Camera R :=
  { camera with
    left := center.x - width * 0.5
    right := center.x + width * 0.5
    top := center.y - height * 0.5
    bottom := center.y + height * 0.5 }

/-- A pixel position in coordinates from -1 to 1, the second one upwards. -/
def screenToNormal (camera : Camera R) (screen : Vec R) : Vec R :=
  ⟨screen.x / camera.viewport.x * 2.0 - 1.0, 1.0 - screen.y / camera.viewport.y * 2.0⟩

/-- The world point at coordinates from -1 to 1. -/
def normalToWorld (camera : Camera R) (normal : Vec R) : Vec R :=
  ⟨camera.left + (normal.x + 1.0) * 0.5 * camera.width,
    camera.top + (1.0 - normal.y) * 0.5 * camera.height⟩

/-- The world point under a pixel. -/
def screenToWorld (camera : Camera R) (screen : Vec R) : Vec R :=
  camera.normalToWorld (camera.screenToNormal screen)

/-- The pixel position of a world point. -/
def worldToScreen (camera : Camera R) (world : Vec R) : Vec R :=
  ⟨(world.x - camera.left) / camera.width * camera.viewport.x,
    (world.y - camera.top) / camera.height * camera.viewport.y⟩

/-- The ray through a pixel. -/
def ray (camera : Camera R) (screen : Vec R) : Ray R :=
  .straightDown (camera.screenToWorld screen)

/-- Moves the view so that what is shown follows a pointer that moved by so
many pixels. -/
def pan (camera : Camera R) (delta : Vec R) : Camera R :=
  let dx := delta.x * camera.width / camera.viewport.x
  let dy := delta.y * camera.height / camera.viewport.y
  { camera with
    left := camera.left - dx
    right := camera.right - dx
    top := camera.top - dy
    bottom := camera.bottom - dy }

/-- The view scaled by a ratio around a world point. -/
def scaledAround (camera : Camera R) (anchor : Vec R) (ratio : R) : Camera R :=
  { camera with
    left := anchor.x - (anchor.x - camera.left) * ratio
    right := anchor.x + (camera.right - anchor.x) * ratio
    top := anchor.y - (anchor.y - camera.top) * ratio
    bottom := anchor.y + (camera.bottom - anchor.y) * ratio }

/-- Zooms by `step` to the power of `notches` around the world point under a
pixel, with the visible height kept between two limits.  Tells whether the view
changed. -/
def zoom (camera : Camera R) (screen : Vec R) (notches step minExtent maxExtent : R) :
    Except Fault (Bool × Camera R) :=
  if notches == 0.0 || step ≤ 0.0 then .ok (false, camera)
  else
    match Scalar.clamp? (camera.height / Scalar.pow step notches) minExtent maxExtent with
    | none => .error .unorderedLimits
    | some height =>
      if Scalar.abs (height - camera.height) ≤ Scalar.epsilon * camera.height then
        .ok (false, camera)
      else
        let ratio := height / camera.height
        .ok (true, camera.scaledAround (camera.screenToWorld screen) ratio)

/-- Changes the viewport.  Centre and visible height stay; the visible width
follows the new aspect.  A viewport without area is refused. -/
def resize (camera : Camera R) (viewportWidth viewportHeight : R) : Bool × Camera R :=
  if viewportWidth ≤ 0.0 || viewportHeight ≤ 0.0 then (false, camera)
  else
    let height := camera.height
    let width := height * viewportWidth / viewportHeight
    (true, { camera with viewport := ⟨viewportWidth, viewportHeight⟩ }.centered camera.center
      width height)

/-- Shows a rectangle with a margin on every side: the tighter axis decides the
extent. -/
def fit (camera : Camera R) (content : Rect R) (margin : R) : Camera R :=
  let target := content.expand margin
  let aspect := camera.viewport.x / camera.viewport.y
  if aspect ≤ target.width / Scalar.max target.height Scalar.epsilon then
    camera.centered target.center target.width (target.width / aspect)
  else
    camera.centered target.center (target.height * aspect) target.height

end Camera

end CodeAtlas
