import CodeAtlas.Camera
import CodeAtlas.Geometry.Curve
import CodeAtlas.Role

/-!
# Picking

Which part of the diagram lies under a ray.  The nearest region wins, and of
regions at one height the one registered last, which is drawn on top.
-/

namespace CodeAtlas

/-- The shape of a region that can be picked. -/
inductive Shape (R : Type) where
  | rect (area : Rect R)
  /-- An open line, picked within a distance of any of its segments. -/
  | polyline (points : List (Vec R)) (halfWidth : R)
  | polygon (points : List (Vec R))

variable {R : Type} [Scalar R]

namespace Shape

def contains (shape : Shape R) (point : Vec R) : Bool :=
  match shape with
  | rect area => area.contains point
  | polyline points halfWidth => Polyline.distance point points ≤ halfWidth
  | polygon points => Polygon.contains points point

/-- The rectangle around the shape. -/
def bounds : Shape R → Option (Rect R)
  | rect area => some area
  | polyline points halfWidth => (Rect.bounding points).map (·.expand halfWidth)
  | polygon points => Rect.bounding points

end Shape

/-- A region that can be picked. -/
structure HitRegion (R : Type) where
  role : Role
  shape : Shape R
  /-- Height above the plane of the diagram. -/
  elevation : R

/-- What a ray met. -/
structure Hit (R : Type) where
  role : Role
  point : Vec R
  /-- The way along the ray. -/
  distance : R

/-- The regions of a scene, in the order they are drawn. -/
structure HitTester (R : Type) where
  regions : List (HitRegion R) := []

namespace HitTester

/-- How far down a ray meets a region. -/
def reach (ray : Ray R) (region : HitRegion R) : Option R :=
  match ray.distanceToPlane region.elevation with
  | some distance => if region.shape.contains ray.origin then some distance else none
  | none => none

/-- The better of the best region so far and the next one. -/
def closer (ray : Ray R) (best : Option (R × HitRegion R)) (region : HitRegion R) :
    Option (R × HitRegion R) :=
  match reach ray region, best with
  | none, _ => best
  | some distance, none => some (distance, region)
  | some distance, some (least, _) => if distance ≤ least then some (distance, region) else best

/-- What a ray meets first. -/
def cast (tester : HitTester R) (ray : Ray R) : Option (Hit R) :=
  (tester.regions.foldl (closer ray) none).map fun (distance, region) =>
    ⟨region.role, ray.origin, distance⟩

/-- What lies on top at a world point. -/
def hitTest (tester : HitTester R) (point : Vec R) : Option (Hit R) :=
  tester.cast (.straightDown point)

/-- The number of regions. -/
def size (tester : HitTester R) : Nat :=
  tester.regions.length

def isEmpty (tester : HitTester R) : Bool :=
  tester.regions.isEmpty

/-- Forgets all regions. -/
def clear (tester : HitTester R) : HitTester R :=
  { tester with regions := [] }

end HitTester

end CodeAtlas
