import CodeAtlas.Number.Scalar
import Mathlib.Data.Rat.Floor
import Mathlib.Data.Rat.Sqrt
import Mathlib.Algebra.Order.Field.Basic
import Mathlib.Tactic.FieldSimp
import Mathlib.Tactic.Linarith

/-!
# Exact scalars

The rationals as scalars, to reason about geometry without rounding.  What they
lack, lengths of hypotenuses, powers and the like, is left open: theorems hold
for whatever functions stand for it.
-/

namespace CodeAtlas

/-- Rational functions in place of what has no exact rational value. -/
class Approximations where
  hypot : ℚ → ℚ → ℚ
  cos : ℚ → ℚ
  sin : ℚ → ℚ
  pow : ℚ → ℚ → ℚ
  infinity : ℚ

/-- Functions that are exact for right triangles with rational sides, for whole
exponents and at angle zero. -/
abbrev Approximations.sample : Approximations where
  hypot x y := Rat.sqrt (x * x + y * y)
  cos x := 1 - x * x / 2
  sin x := x
  pow base exponent := base ^ ⌊exponent⌋
  infinity := 10 ^ 39

namespace Exact

@[simp]
theorem zero_eq : (0.0 : ℚ) = 0 := by norm_num

@[simp]
theorem one_eq : (1.0 : ℚ) = 1 := by norm_num

@[simp]
theorem two_eq : (2.0 : ℚ) = 2 := by norm_num

@[simp]
theorem half_eq : (0.5 : ℚ) = 1 / 2 := by norm_num

variable [Approximations]

instance scalar : Scalar ℚ where
  decideLT := inferInstance
  decideLE := inferInstance
  hypot := Approximations.hypot
  cos := Approximations.cos
  sin := Approximations.sin
  pow := Approximations.pow
  floor x := ⌊x⌋
  ceil x := ⌈x⌉
  round x := if 0 ≤ x then ⌊x + 1 / 2⌋ else ⌈x - 1 / 2⌉
  ofInt n := n
  trunc x := max (-(2 ^ 63)) (min (2 ^ 63 - 1) (if 0 ≤ x then ⌊x⌋ else ⌈x⌉))
  infinity := Approximations.infinity

@[simp]
theorem max_eq (a b : ℚ) : Scalar.max a b = max a b := by
  unfold Scalar.max
  rw [if_pos (beq_self_eq_true b)]
  split
  · next lt => exact (max_eq_left_of_lt lt).symm
  · next ge => exact (max_eq_right (not_lt.mp ge)).symm

@[simp]
theorem min_eq (a b : ℚ) : Scalar.min a b = min a b := by
  unfold Scalar.min
  rw [if_pos (beq_self_eq_true b)]
  split
  · next lt => exact (min_eq_left_of_lt lt).symm
  · next ge => exact (min_eq_right (not_lt.mp ge)).symm

@[simp]
theorem ofNat_eq (n : ℕ) : (Scalar.ofNat n : ℚ) = n :=
  Int.cast_natCast n

theorem epsilon_pos : (0 : ℚ) < Scalar.epsilon := by
  norm_num [Scalar.epsilon]

theorem le_ceil (x : ℚ) : x ≤ Scalar.ceil x :=
  Int.le_ceil x

theorem ceil_le {x : ℚ} {whole : ℤ} (le : x ≤ whole) : Scalar.ceil x ≤ (whole : ℚ) := by
  change (⌈x⌉ : ℚ) ≤ whole
  exact_mod_cast Int.ceil_le.mpr le

theorem ceil_mono {x y : ℚ} (le : x ≤ y) : Scalar.ceil x ≤ Scalar.ceil y :=
  ceil_le (le.trans (Int.le_ceil y))

end Exact

end CodeAtlas
