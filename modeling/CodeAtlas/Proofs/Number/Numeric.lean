import CodeAtlas.Number.Single
import Mathlib.Algebra.Group.Nat.Defs
import Mathlib.Data.Int.Notation

/-!
# Numbers stay numbers

What is no number comes from an operation without an answer, such as zero
divided by zero.  Rounding never makes it, and neither does scaling by a finite
number other than zero.  The powers of ten within double precision are such
numbers, so a number in decimal digits always is one.
-/

namespace CodeAtlas

namespace Numeric

open Float.Model
open UnpackedFloat (ExtendedMantissa)

/-! ## Before packing -/

/-- A number to scale by: finite and not zero. -/
def isScale : UnpackedFloat → Bool
  | .finite .. => true
  | _ => false

theorem isNaN_ite {p : Prop} [Decidable p] {x y : UnpackedFloat} (first : x.isNaN = false)
    (second : y.isNaN = false) : (if p then x else y).isNaN = false := by
  rw [apply_ite UnpackedFloat.isNaN, first, second, ite_self]

section Unpacked

variable (spec : Format) (x : UnpackedFloat) (sign : UnpackedFloat.Sign) (mantissa : ℕ)
  (exponent : ℤ)

/-- Rounding ends in a zero or in a finite number. -/
theorem isNaN_roundWithAccuracy (accuracy : UnpackedFloat.Accuracy) :
    (UnpackedFloat.roundWithAccuracy spec sign mantissa exponent accuracy).isNaN = false := by
  delta UnpackedFloat.roundWithAccuracy
  rw [apply_dite UnpackedFloat.isNaN]
  exact ite_self false

theorem isNaN_round : (UnpackedFloat.round spec sign mantissa exponent).isNaN = false :=
  isNaN_roundWithAccuracy ..

theorem isNaN_ofNat (value : ℕ) : (UnpackedFloat.ofNat spec value).isNaN = false := by
  unfold UnpackedFloat.ofNat UnpackedFloat.ofInt UnpackedFloat.normalize
  split
  · exact isNaN_round ..
  · rfl
  · exact isNaN_round ..

theorem isNaN_neg : x.neg.isNaN = x.isNaN := by
  cases x <;> rfl

variable {x} in
theorem isNaN_div_of_isScale {y : UnpackedFloat} (number : x.isNaN = false)
    (scale : isScale y = true) : (x.div spec y).isNaN = false := by
  rcases y with _ | _ | _ | ⟨sign, mantissa, exponent, positive⟩ <;> cases scale
  cases x with
  | finite => exact isNaN_roundWithAccuracy ..
  | _ => exact number

variable {x} in
theorem isNaN_mul_of_isScale {y : UnpackedFloat} (number : x.isNaN = false)
    (scale : isScale y = true) : (x.mul spec y).isNaN = false := by
  rcases y with _ | _ | _ | ⟨sign, mantissa, exponent, positive⟩ <;> cases scale
  cases x with
  | finite => exact isNaN_roundWithAccuracy ..
  | _ => exact number

theorem isNaN_ofScientific :
    (UnpackedFloat.ofScientific spec mantissa exponent).isNaN = false := by
  unfold UnpackedFloat.ofScientific
  by_cases none : mantissa = 0
  · rw [dif_pos none]
    rfl
  rw [dif_neg none]
  refine isNaN_ite rfl (isNaN_ite rfl (isNaN_ite ?_ ?_))
  · exact isNaN_mul_of_isScale spec rfl rfl
  · exact isNaN_div_of_isScale spec rfl rfl

end Unpacked

/-! ## Packing -/

theorem isNaN_unpack_iff (spec : Format) (bits : BitVec spec.numBits) :
    (UnpackedFloat.unpack spec bits).isNaN = true ↔
      UnpackedFloat.unpackExponent bits = -1#_ ∧ UnpackedFloat.unpackMantissa bits ≠ 0#_ := by
  unfold UnpackedFloat.unpack
  dsimp only
  by_cases full : UnpackedFloat.unpackExponent bits = -1#_
  · rw [if_pos full]
    by_cases plain : UnpackedFloat.unpackMantissa bits = 0#_
    · rw [if_pos plain]
      change false = true ↔ _
      simp [plain]
    · rw [if_neg plain]
      exact iff_of_true rfl ⟨full, plain⟩
  · rw [if_neg full, iff_false_right fun packed => full packed.1, Bool.not_eq_true]
    refine isNaN_ite ?_ rfl
    rw [apply_dite UnpackedFloat.isNaN]
    exact ite_self false

/-- Numbers are packed as numbers; those that are too large become infinite. -/
theorem isNaN_unpack_pack (spec : Format) {x : UnpackedFloat} (number : x.isNaN = false) :
    (UnpackedFloat.unpack spec (x.pack spec)).isNaN = false := by
  rw [Bool.eq_false_iff, ne_eq, isNaN_unpack_iff]
  rintro ⟨full, marked⟩
  revert full marked
  fun_cases UnpackedFloat.pack spec x with
  | case1 => cases number
  | case2 sign => simp [UnpackedFloat.packedInfinity]
  | case3 sign => simp [UnpackedFloat.packedZero, Nat.ne_of_gt spec.he]
  | case4 sign => simp [UnpackedFloat.packedInfinity]
  | case5 sign mantissa exponent positive _ biased inRange =>
    -- The largest exponent is left to the infinities.
    intro full
    simp only [UnpackedFloat.unpackExponent_packComponents, BitVec.neg_one_eq_allOnes,
      ← BitVec.toNat_inj, BitVec.toNat_ofNat, BitVec.toNat_allOnes] at full
    rw [Nat.mod_eq_of_lt (by omega)] at full
    omega
  | case6 => simp [Nat.ne_of_gt spec.he]

theorem isNaN_single {x : UnpackedFloat} (number : x.isNaN = false) :
    (Float32.ofModel (.pack x)).isNaN = false :=
  isNaN_unpack_pack .binary32 number

theorem isNaN_double {x : UnpackedFloat} (number : x.isNaN = false) :
    (Float.ofModel (.pack x)).isNaN = false :=
  isNaN_unpack_pack .binary64 number

/-! ## Powers of ten -/

/-- Shifting by several places at once.  The first binary digit that is dropped is
kept to round by, and of the others whether one is set. -/
def shifted (extended : ExtendedMantissa) : ℕ → ExtendedMantissa
  | 0 => extended
  | places + 1 =>
    ⟨extended.mantissa / 2 ^ (places + 1), extended.mantissa / 2 ^ places % 2 != 0,
      extended.mantissa % 2 ^ places != 0 || (extended.roundBit || extended.stickyBit)⟩

theorem shiftRight_eq (extended : ExtendedMantissa) (places : ℕ) :
    extended >>> places = shifted extended places := by
  induction places with
  | zero => rfl
  | succ places ih =>
    change (extended >>> places).shiftRightOne = _
    rw [ih]
    cases places with
    | zero => simp [shifted, ExtendedMantissa.shiftRightOne, Nat.mod_one]
    | succ places =>
      have dropped : (extended.mantissa % 2 ^ (places + 1) != 0) =
          (extended.mantissa / 2 ^ places % 2 != 0 || extended.mantissa % 2 ^ places != 0) := by
        have positive : 0 < 2 ^ places := Nat.two_pow_pos places
        rw [Nat.mod_pow_succ, Bool.eq_iff_iff]
        simp
        grind
      simp only [shifted, ExtendedMantissa.shiftRightOne, dropped, Nat.div_div_eq_div_mul,
        ← Nat.pow_succ, Bool.or_assoc]

theorem shiftToExponent_eq : UnpackedFloat.shiftToExponent =
    fun mantissa (exponent : ℤ) accuracy (target : ℤ) =>
      (shifted (.ofMantissaAndAccuracy mantissa accuracy) (target - exponent).toNat,
        exponent + ((target - exponent).toNat : ℤ)) := by
  funext mantissa exponent accuracy target
  rw [← shiftRight_eq]
  rfl

/-- Powers of ten within double precision are rounded to numbers within it. -/
theorem isScale_rounded : ∀ power ≤ 308,
    isScale (Float.Model.pack (UnpackedFloat.roundWithAccuracy .binary64 (.positive * .positive)
      (1 <<< 53 * 10 ^ power) (-53) .exact)).unpack = true := by
  -- Place by place, shifting a thousand digits away takes too long.
  delta UnpackedFloat.roundWithAccuracy UnpackedFloat.shiftToTargetExponent
  rw [shiftToExponent_eq]
  decide +kernel

/-- A power of ten that is not exact is rounded once. -/
theorem ofScientific_eq_round {power : ℕ} (inexact : 22 < power) (small : power ≤ 308) :
    Float.ofScientific 1 false power =
      .ofModel (.pack (UnpackedFloat.roundWithAccuracy .binary64 (.positive * .positive)
        (1 <<< 53 * 10 ^ power) (-53) .exact)) := by
  have unpacked : UnpackedFloat.ofScientific .binary64 1 (power : ℤ) =
      UnpackedFloat.roundWithAccuracy .binary64 (.positive * .positive)
        (1 <<< 53 * 10 ^ power) (-53) .exact := by
    unfold UnpackedFloat.ofScientific
    rw [dif_neg Nat.one_ne_zero]
    refine (if_neg ?_).trans ((if_neg ?_).trans (if_pos (by omega)))
    · change ¬ (power : ℤ) > 2048
      omega
    · change ¬ (power : ℤ) < -2048
      omega
  unfold Float.ofScientific
  rw [dif_neg (by omega)]
  exact congrArg (fun number => Float.ofModel (.pack number)) unpacked

theorem isScale_power {power : ℕ} (small : power ≤ 308) :
    isScale (Float.ofScientific 1 false power).toModel.unpack = true := by
  by_cases exact : power ≤ 22
  · decide +revert +kernel
  · rw [ofScientific_eq_round (by omega) small]
    exact isScale_rounded power small

/-! ## Numbers of both precisions -/

theorem isNaN_div {a b : Float} (number : a.isNaN = false)
    (scale : isScale b.toModel.unpack = true) : (a / b).isNaN = false :=
  isNaN_double (isNaN_div_of_isScale _ number scale)

theorem isNaN_mul {a b : Float} (number : a.isNaN = false)
    (scale : isScale b.toModel.unpack = true) : (a * b).isNaN = false :=
  isNaN_double (isNaN_mul_of_isScale _ number scale)

theorem isNaN_negated {a : Float} (number : a.isNaN = false) : (-a).isNaN = false :=
  isNaN_double ((isNaN_neg _).trans number)

theorem isNaN_floatOfNat (value : ℕ) : (Float.ofNat value).isNaN = false := by
  change (Float.ofScientific value false 0).isNaN = false
  unfold Float.ofScientific
  split
  · have one : isScale (Float.ofBits 0x3ff0000000000000).toModel.unpack = true := by
      decide +kernel
    exact isNaN_mul (isNaN_double (isNaN_ofNat ..)) one
  · exact isNaN_double (isNaN_ofScientific ..)

theorem isNaN_float32OfNat (value : ℕ) : (Float32.ofNat value).isNaN = false := by
  change (Float32.ofScientific value false 0).isNaN = false
  unfold Float32.ofScientific
  split
  · have one : isScale (Float32.ofBits 0x3f800000).toModel.unpack = true := by
      decide +kernel
    exact isNaN_single (isNaN_mul_of_isScale _ (isNaN_single (isNaN_ofNat ..)) one)
  · exact isNaN_single (isNaN_ofScientific ..)

theorem isNaN_float32OfInt (value : ℤ) : (Float32.ofInt value).isNaN = false := by
  cases value with
  | ofNat value => exact isNaN_float32OfNat value
  | negSucc value => exact isNaN_single ((isNaN_neg _).trans (isNaN_float32OfNat (value + 1)))

/-- Narrowing a number gives a number. -/
theorem isNaN_ofDouble {a : Float} (number : a.isNaN = false) :
    (Single.ofDouble a).isNaN = false := by
  unfold Single.ofDouble
  split
  · exact isNaN_single (isNaN_round ..)
  · exact isNaN_single number

end Numeric

end CodeAtlas
