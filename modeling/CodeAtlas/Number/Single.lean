import CodeAtlas.Number.Scalar

/-!
# Single precision

The scalars of the running program: 32-bit floating point, rounded after
every operation.  The length of a hypotenuse is the one operation taken in
double precision and rounded once, so that it neither overflows nor loses
digits on the way.

Rounding to whole numbers, dropping the fraction and narrowing a double are
spelled out here, so that they can be computed with in proofs too.
-/

namespace CodeAtlas

/-- Thirty-two bit floating point. -/
abbrev Single : Type := Float32

namespace Single

/-- The hypotenuse through double precision.  An infinite leg makes it
infinite, whatever the other leg is. -/
@[inline]
def hypot (x y : Float32) : Float32 :=
  if x.isInf || y.isInf then
    Float32.ofBits 0x7f800000
  else
    (x.toFloat * x.toFloat + y.toFloat * y.toFloat).sqrt.toFloat32

/-- The number of single precision nearest to a double, of two equally near ones
the even one. -/
def ofDouble (x : Float) : Float32 :=
  match Float.Model.UnpackedFloat.unpack .binary64 x.toBits.toBitVec with
  | .finite sign mantissa exponent _ =>
    .ofModel (.pack (Float.Model.UnpackedFloat.round .binary32 sign mantissa exponent))
  | other => .ofModel (.pack other)

/-- The nearest whole number of a number that is not negative and has room for a
fraction; a half goes up. -/
@[inline]
def roundUp (x : Float32) : Float32 :=
  let whole := x.toUInt64.toFloat32
  if 0.5 ≤ x - whole then whole + 1.0 else whole

/-- The nearest whole number, halves away from zero.  From `2 ^ 23` on all numbers
are whole, and a zero keeps its sign. -/
@[inline]
def round (x : Float32) : Float32 :=
  if 0.0 < x ∧ x < 8388608.0 then roundUp x
  else if x < 0.0 ∧ -8388608.0 < x then -(roundUp (-x))
  else x

/-- The whole number left when the fraction is dropped, within 64 bits. -/
@[inline]
def trunc (x : Float32) : Int :=
  if x < 0.0 then -(Nat.min (-x).toUInt64.toNat 9223372036854775808 : Nat)
  else (Nat.min x.toUInt64.toNat 9223372036854775807 : Nat)

instance scalar : Scalar Float32 where
  decideLT := inferInstance
  decideLE := inferInstance
  hypot := hypot
  cos := Float32.cos
  sin := Float32.sin
  pow := Float32.pow
  floor := Float32.floor
  ceil := Float32.ceil
  round := round
  ofInt := Float32.ofInt
  trunc := trunc
  infinity := Float32.ofBits 0x7f800000

end Single

end CodeAtlas
