import CodeAtlas.Geometry.Rect

/-!
# Outlines, lines and polygons

The shapes the diagram is made of: rounded boxes, open lines with their
distance to a point, filled polygons and arrowheads.
-/

namespace CodeAtlas

variable {R : Type} [Scalar R]

/-! ## Outlines -/

namespace Outline

/-- Half a turn. -/
@[inline]
def halfTurn : R :=
  3.1415927410125732421875

/-- A quarter turn. -/
@[inline]
def quarterTurn : R :=
  1.57079637050628662109375

/-- The points of a quarter circle in equal steps, both ends included. -/
def arc (center : Vec R) (radius start : R) (segments : Nat) : List (Vec R) :=
  (List.range (segments + 1)).map fun step =>
    let angle := start + quarterTurn * (Scalar.ofNat step / Scalar.ofNat segments)
    ⟨center.x + radius * Scalar.cos angle, center.y + radius * Scalar.sin angle⟩

/-- Whether an outline with so many segments a corner can be held at all. -/
def fits (segments : Nat) : Bool :=
  32 * (Nat.max segments 1 + 1) < Nat.pow 2 63

/-- The closed outline of a rectangle with rounded corners, clockwise on screen
from the arc at the upper left.  The radius is at most half the shorter side;
without a radius the corners themselves are the outline.  An outline that
cannot be held is empty. -/
def rounded (rect : Rect R) (radius : R) (segments : Nat) : List (Vec R) :=
  let radius := Scalar.min (Scalar.max radius 0.0) (Scalar.min rect.width rect.height * 0.5)
  if radius ≤ Scalar.epsilon then
    [rect.min, ⟨rect.max.x, rect.min.y⟩, rect.max, ⟨rect.min.x, rect.max.y⟩]
  else if fits segments then
    let segments := Nat.max segments 1
    arc ⟨rect.min.x + radius, rect.min.y + radius⟩ radius halfTurn segments ++
      arc ⟨rect.max.x - radius, rect.min.y + radius⟩ radius (halfTurn + quarterTurn) segments ++
      arc ⟨rect.max.x - radius, rect.max.y - radius⟩ radius 0.0 segments ++
      arc ⟨rect.min.x + radius, rect.max.y - radius⟩ radius quarterTurn segments
  else []

end Outline

/-! ## Lines -/

namespace Polyline

/-- The pairs of neighbouring points. -/
def segments {α : Type} (points : List α) : List (α × α) :=
  points.zip points.tail

/-- Distance from a point to the segment between two others. -/
def distanceToSegment (p a b : Vec R) : R :=
  let along := b - a
  let squared := along.dot along
  if squared ≤ Scalar.epsilon then (p - a).length
  else
    let t := (p - a).dot along / squared
    let t := if t < 0.0 then 0.0 else if 1.0 < t then 1.0 else t
    (p - (a + along * t)).length

/-- Distance from a point to an open line: to its nearest segment. -/
def distance (p : Vec R) : List (Vec R) → R
  | [] => Scalar.infinity
  | [single] => (p - single).length
  | points =>
    ((segments points).map fun (a, b) => distanceToSegment p a b).foldl Scalar.min
      Scalar.infinity

end Polyline

/-! ## Polygons -/

namespace Polygon

/-- The sides of a closed polygon: every point with the point before it, the
first with the last. -/
def sides (points : List (Vec R)) : List (Vec R × Vec R) :=
  match points.getLast? with
  | none => []
  | some last => points.zip (last :: points)

/-- Where a side crosses a height, if it does. -/
@[inline]
def crossing? (y : R) (side : Vec R × Vec R) : Option R :=
  let (a, b) := side
  if decide (y < a.y) != decide (y < b.y) then
    some ((b.x - a.x) * (y - a.y) / (b.y - a.y) + a.x)
  else none

/-- Where the sides of a polygon cross a height; fewer than three points make
no polygon. -/
def crossings (points : List (Vec R)) (y : R) : List R :=
  if points.length < 3 then [] else (sides points).filterMap (crossing? y)

/-- Whether an odd number of crossings lies beyond `x`. -/
@[inline]
def oddBeyond (crossings : List R) (x : R) : Bool :=
  crossings.foldl (fun inside crossing => if x < crossing then !inside else inside) false

/-- Whether a point lies in a polygon by the even-odd rule. -/
def contains (points : List (Vec R)) (p : Vec R) : Bool :=
  oddBeyond (crossings points p.y) p.x

end Polygon

/-- The triangle with its tip at `tip` that points away from `start`. -/
def arrowhead (tip start : Vec R) (length width : R) : List (Vec R) :=
  let direction := (tip - start).normalized
  let direction : Vec R := if direction.equal .zero then ⟨1.0, 0.0⟩ else direction
  let base := tip - direction * length
  let side := direction.perp * (width * 0.5)
  [tip, base + side, base - side]

end CodeAtlas
