import CodeAtlas.Number.Scalar

/-!
# Points and displacements

Pairs of scalars in world or screen units.  The second coordinate grows
downwards, as on a screen.
-/

namespace CodeAtlas

/-- A point, or the displacement between two points. -/
structure Vec (R : Type) where
  x : R
  y : R
deriving DecidableEq, Repr

namespace Vec

variable {R : Type} [Scalar R]

@[inline]
def zero : Vec R :=
  ⟨0.0, 0.0⟩

instance : Inhabited (Vec R) :=
  ⟨zero⟩

@[inline]
def add (a b : Vec R) : Vec R :=
  ⟨a.x + b.x, a.y + b.y⟩

@[inline]
def sub (a b : Vec R) : Vec R :=
  ⟨a.x - b.x, a.y - b.y⟩

@[inline]
def neg (a : Vec R) : Vec R :=
  ⟨-a.x, -a.y⟩

/-- The displacement stretched by a factor. -/
@[inline]
def scale (a : Vec R) (k : R) : Vec R :=
  ⟨a.x * k, a.y * k⟩

instance : Add (Vec R) :=
  ⟨add⟩

instance : Sub (Vec R) :=
  ⟨sub⟩

instance : Neg (Vec R) :=
  ⟨neg⟩

instance : HMul (Vec R) R (Vec R) :=
  ⟨scale⟩

/-- Whether the coordinates compare equal. -/
@[inline]
def equal (a b : Vec R) : Bool :=
  a.x == b.x && a.y == b.y

@[inline]
def dot (a b : Vec R) : R :=
  a.x * b.x + a.y * b.y

@[inline]
def length (a : Vec R) : R :=
  Scalar.hypot a.x a.y

/-- The displacement of length one in the same direction, or zero if there is
hardly any length. -/
def normalized (a : Vec R) : Vec R :=
  let length := a.length
  if length ≤ Scalar.epsilon then zero else ⟨a.x / length, a.y / length⟩

/-- The displacement turned by a quarter. -/
@[inline]
def perp (a : Vec R) : Vec R :=
  ⟨-a.y, a.x⟩

end Vec

end CodeAtlas
