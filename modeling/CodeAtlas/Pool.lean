import CodeAtlas.Label.Metrics

/-!
# Resources

Label pictures and outlines live in a pool and are named by numbers that are
never reused, so that whoever keeps copies by number cannot mistake a released
label for a newer one.
-/

namespace CodeAtlas

abbrev ResourceId : Type := Nat

inductive Resource (R : Type) where
  | label (bitmap : LabelBitmap)
  | shape (points : List (Vec R))

/-- The live resources, and the last number given out. -/
structure Pool (R : Type) where
  lastId : ResourceId := 0
  entries : List (ResourceId × Resource R) := []

instance {R : Type} : Inhabited (Pool R) :=
  ⟨{}⟩

namespace Pool

variable {R : Type}

/-- The resource of a number, if it is live. -/
def get? (pool : Pool R) (id : ResourceId) : Option (Resource R) :=
  pool.entries.lookup id

/-- Takes in a resource under a new number. -/
def allocate (pool : Pool R) (resource : Resource R) : ResourceId × Pool R :=
  let id := pool.lastId + 1
  (id, ⟨id, (id, resource) :: pool.entries⟩)

def allocateLabel (pool : Pool R) (label : LabelBitmap) : ResourceId × Pool R :=
  pool.allocate (.label label)

def allocateShape (pool : Pool R) (points : List (Vec R)) : ResourceId × Pool R :=
  pool.allocate (.shape points)

/-- Puts another resource under a number. -/
def put (pool : Pool R) (id : ResourceId) (resource : Resource R) : Pool R :=
  { pool with
    entries := pool.entries.map fun entry => if entry.1 = id then (id, resource) else entry }

def label? (pool : Pool R) (id : ResourceId) : Option LabelBitmap :=
  match pool.get? id with
  | some (.label bitmap) => some bitmap
  | _ => none

def shape? (pool : Pool R) (id : ResourceId) : Option (List (Vec R)) :=
  match pool.get? id with
  | some (.shape points) => some points
  | _ => none

/-- Replaces the points of a live shape, and tells whether there was one. -/
def replaceShape (pool : Pool R) (id : ResourceId) (points : List (Vec R)) : Bool × Pool R :=
  if (pool.shape? id).isSome then (true, pool.put id (.shape points)) else (false, pool)

/-- Replaces the shape in a slot, or fills the slot with a new one. -/
def upsertShape (pool : Pool R) (slot : Option ResourceId) (points : List (Vec R)) :
    ResourceId × Pool R :=
  match slot with
  | some id =>
    if (pool.shape? id).isSome then (id, pool.put id (.shape points))
    else pool.allocateShape points
  | none => pool.allocateShape points

def contains (pool : Pool R) (id : ResourceId) : Bool :=
  (pool.get? id).isSome

/-- Lets a resource go. -/
def release (pool : Pool R) (id : ResourceId) : Pool R :=
  { pool with entries := pool.entries.filter fun entry => entry.1 ≠ id }

/-- Lets go of what a slot holds. -/
def releaseSlot (pool : Pool R) : Option ResourceId → Pool R
  | some id => pool.release id
  | none => pool

/-- Lets go of several resources. -/
def releaseAll (pool : Pool R) (ids : List ResourceId) : Pool R :=
  ids.foldl release pool

/-- Lets all resources go; numbers go on from where they were. -/
def clear (pool : Pool R) : Pool R :=
  { pool with entries := [] }

/-- The number of live resources. -/
def size (pool : Pool R) : Nat :=
  pool.entries.length

def isEmpty (pool : Pool R) : Bool :=
  pool.entries.isEmpty

/-- What is kept under numbers that are still live. -/
def keepLive {α : Type} (pool : Pool R) (kept : List (ResourceId × α)) : List (ResourceId × α) :=
  kept.filter fun entry => pool.contains entry.1

/-- Whether everything in the pool can be held: no picture is too large and no
outline had to be left empty. -/
def fits (pool : Pool R) : Bool :=
  pool.entries.all fun entry => match entry.2 with
    | .label bitmap => Picture.fits bitmap.width bitmap.height
    | .shape points => !points.isEmpty

end Pool

end CodeAtlas
