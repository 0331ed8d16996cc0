import CodeAtlas.Geometry.Vec

/-!
# Rectangles

Rectangles with sides parallel to the axes, given by two corners.  Nothing
keeps the corners in order: an inverted rectangle contains no point.
-/

namespace CodeAtlas

structure Rect (R : Type) where
  min : Vec R
  max : Vec R
deriving DecidableEq, Repr

namespace Rect

variable {R : Type} [Scalar R]

instance : Inhabited (Rect R) :=
  ⟨⟨.zero, .zero⟩⟩

/-- The rectangle of a size with its least corner at a position. -/
def ofPosSize (position size : Vec R) : Rect R :=
  ⟨position, position + size⟩

/-- The rectangle of a size around a centre. -/
def ofCenterSize (center size : Vec R) : Rect R :=
  let half := size * (0.5 : R)
  ⟨center - half, center + half⟩

@[inline]
def width (rect : Rect R) : R :=
  rect.max.x - rect.min.x

@[inline]
def height (rect : Rect R) : R :=
  rect.max.y - rect.min.y

def size (rect : Rect R) : Vec R :=
  ⟨rect.width, rect.height⟩

def center (rect : Rect R) : Vec R :=
  ⟨rect.min.x + rect.width * 0.5, rect.min.y + rect.height * 0.5⟩

/-- Whether a point lies in the rectangle, border included. -/
@[inline]
def contains (rect : Rect R) (point : Vec R) : Bool :=
  rect.min.x ≤ point.x && point.x ≤ rect.max.x && rect.min.y ≤ point.y && point.y ≤ rect.max.y

/-- The rectangle with every side moved outwards. -/
def expand (rect : Rect R) (amount : R) : Rect R :=
  ⟨⟨rect.min.x - amount, rect.min.y - amount⟩, ⟨rect.max.x + amount, rect.max.y + amount⟩⟩

/-- The least rectangle around two. -/
def union (a b : Rect R) : Rect R :=
  ⟨⟨Scalar.min a.min.x b.min.x, Scalar.min a.min.y b.min.y⟩,
    ⟨Scalar.max a.max.x b.max.x, Scalar.max a.max.y b.max.y⟩⟩

def translate (rect : Rect R) (offset : Vec R) : Rect R :=
  ⟨rect.min + offset, rect.max + offset⟩

def leftCenter (rect : Rect R) : Vec R :=
  ⟨rect.min.x, rect.center.y⟩

def rightCenter (rect : Rect R) : Vec R :=
  ⟨rect.max.x, rect.center.y⟩

def topCenter (rect : Rect R) : Vec R :=
  ⟨rect.center.x, rect.min.y⟩

def bottomCenter (rect : Rect R) : Vec R :=
  ⟨rect.center.x, rect.max.y⟩

/-- The rectangle of a single point. -/
def ofPoint (point : Vec R) : Rect R :=
  ⟨point, point⟩

/-- The least rectangle around a list of points, if there are any. -/
def bounding : List (Vec R) → Option (Rect R)
  | [] => none
  | first :: rest => some (rest.foldl (fun rect point => rect.union (ofPoint point)) (ofPoint first))

/-- The least rectangle around a list of rectangles, if there are any. -/
def unionAll : List (Rect R) → Option (Rect R)
  | [] => none
  | first :: rest => some (rest.foldl union first)

end Rect

end CodeAtlas
