/-!
# Scalars

Geometry, layout, camera and drawing are written once, over any type of
numbers with the operations below.  The running program uses single
precision; exact fields serve to reason about the same definitions without
rounding.

Nothing is assumed of the operations here.  In particular a scalar may differ
from itself, which is how single precision marks a result that is no number.
-/

namespace CodeAtlas

/-- The arithmetic that the diagram is computed in. -/
class Scalar (R : Type) extends Add R, Sub R, Mul R, Div R, Neg R, LT R, LE R, BEq R,
    OfScientific R where
  /-- The strict order is decidable. -/
  decideLT : DecidableLT R
  /-- The order is decidable. -/
  decideLE : DecidableLE R
  /-- Length of the hypotenuse over two legs. -/
  hypot : R → R → R
  cos : R → R
  sin : R → R
  /-- Power with a scalar exponent. -/
  pow : R → R → R
  floor : R → R
  ceil : R → R
  /-- Nearest whole number, halves away from zero. -/
  round : R → R
  /-- The scalar nearest to a whole number. -/
  ofInt : Int → R
  /-- The whole number left when the fraction is dropped.  What is no number
  gives zero, and what lies beyond the 64-bit integers gives their end. -/
  trunc : R → Int
  /-- A scalar above all others that compare, if there is one. -/
  infinity : R

namespace Scalar

variable {R : Type} [Scalar R]

instance (a b : R) : Decidable (a < b) :=
  decideLT a b

instance (a b : R) : Decidable (a ≤ b) :=
  decideLE a b

/-- The scalar nearest to a natural number. -/
@[inline]
def ofNat (n : Nat) : R :=
  ofInt n

/-- The smaller of two scalars; the other one if one is no number, and the
second of two equals. -/
@[inline]
def min (a b : R) : R :=
  if b == b then (if a < b then a else b) else a

/-- The larger of two scalars; the other one if one is no number, and the
second of two equals. -/
@[inline]
def max (a b : R) : R :=
  if b == b then (if b < a then a else b) else a

/-- Distance from zero. -/
@[inline]
def abs (a : R) : R :=
  if a ≤ 0.0 then 0.0 - a else a

/-- `x` moved into the interval from `low` to `high`.  There is no answer when
the limits are out of order or one of them is no number; an `x` that is no
number stays as it is. -/
@[inline]
def clamp? (x low high : R) : Option R :=
  if low ≤ high then
    let raised := if x < low then low else x
    some (if high < raised then high else raised)
  else
    none

/-- Two to the power minus 23, the spacing of single precision at one. -/
@[inline]
def epsilon : R :=
  1.1920928955078125e-7

/-- The integer part as a count of at most `limit`. -/
@[inline]
def toCount (limit : Nat) (x : R) : Nat :=
  Nat.min (trunc x).toNat limit

/-- The integer part as a number of pixels. -/
@[inline]
def toPixels (x : R) : Nat :=
  toCount 4294967295 x

/-- The integer part as a colour channel. -/
@[inline]
def toByte (x : R) : UInt8 :=
  UInt8.ofNat (toCount 255 x)

end Scalar

end CodeAtlas
