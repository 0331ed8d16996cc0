import CodeAtlas.Number.Single
import Mathlib.Data.Prod.Lex

/-!
# Comparing in single precision

Single precision compares by sign and kind first, then by exponent and mantissa.
That puts all numbers in one row, infinities at its ends and both zeros at one
place.  What is no number has no place in the row and compares with nothing,
not even with itself.
-/

namespace CodeAtlas

namespace Single

open Float.Model

variable {a b : Float32}

/-! ## Exponent before mantissa -/

theorem isLE_compare_then {e f : ℤ} {m n : ℕ} :
    ((compare e f).then (compare m n)).isLE = true ↔ e < f ∨ e = f ∧ m ≤ n := by
  rcases lt_trichotomy e f with less | rfl | more
  · simp [compare_lt_iff_lt.mpr less, less]
  · simp [Nat.isLE_compare]
  · simp [compare_gt_iff_gt.mpr more, more.le, more.ne']

theorem isGE_compare_then {e f : ℤ} {m n : ℕ} :
    ((compare e f).then (compare m n)).isGE = true ↔ f < e ∨ e = f ∧ n ≤ m := by
  rcases lt_trichotomy e f with less | rfl | more
  · simp [compare_lt_iff_lt.mpr less, less.le, less.ne]
  · simp [Nat.isGE_compare]
  · simp [compare_gt_iff_gt.mpr more, more]

theorem compare_then_eq_lt {e f : ℤ} {m n : ℕ} :
    (compare e f).then (compare m n) = .lt ↔ e < f ∨ e = f ∧ m < n := by
  rcases lt_trichotomy e f with less | rfl | more
  · simp [compare_lt_iff_lt.mpr less, less]
  · simp [compare_lt_iff_lt]
  · simp [compare_gt_iff_gt.mpr more, more.le, more.ne']

theorem compare_then_eq_gt {e f : ℤ} {m n : ℕ} :
    (compare e f).then (compare m n) = .gt ↔ f < e ∨ e = f ∧ n < m := by
  rcases lt_trichotomy e f with less | rfl | more
  · simp [compare_lt_iff_lt.mpr less, less.le, less.ne]
  · simp [compare_gt_iff_gt]
  · simp [compare_gt_iff_gt.mpr more, more]

/-! ## The place of a number -/

/-- The place of a number among all others; what is no number has none. -/
def rank? : UnpackedFloat → Option (ℤ ×ₗ ℤ ×ₗ ℤ)
  | .notANumber => none
  | .infinity .negative => some (toLex (-2, toLex (0, 0)))
  | .finite .negative mantissa exponent _ => some (toLex (-1, toLex (-exponent, -(mantissa : ℤ))))
  | .zero _ => some (toLex (0, toLex (0, 0)))
  | .finite .positive mantissa exponent _ => some (toLex (1, toLex (exponent, (mantissa : ℤ))))
  | .infinity .positive => some (toLex (2, toLex (0, 0)))

/-- Comparison goes by places, whatever the two sides are. -/
theorem le_iff_rank (a b : UnpackedFloat) :
    a.le b = true ↔ ∃ first ∈ rank? a, ∃ second ∈ rank? b, first ≤ second := by
  rcases a with (_ | _) | _ | _ | ⟨_ | _, mantissa, exponent, positive⟩ <;>
  rcases b with (_ | _) | _ | _ | ⟨_ | _, mantissa', exponent', positive'⟩ <;>
  dsimp only [UnpackedFloat.le, UnpackedFloat.compare, rank?] <;>
  simp [Prod.Lex.toLex_le_toLex, isLE_compare_then, isGE_compare_then]
  -- Two infinities are compared by their signs.
  all_goals rfl

theorem lt_iff_rank (a b : UnpackedFloat) :
    a.lt b = true ↔ ∃ first ∈ rank? a, ∃ second ∈ rank? b, first < second := by
  rcases a with (_ | _) | _ | _ | ⟨_ | _, mantissa, exponent, positive⟩ <;>
  rcases b with (_ | _) | _ | _ | ⟨_ | _, mantissa', exponent', positive'⟩ <;>
  dsimp only [UnpackedFloat.lt, UnpackedFloat.compare, rank?] <;>
  simp [Prod.Lex.toLex_lt_toLex, compare_then_eq_lt, compare_then_eq_gt]
  all_goals rfl

theorem le_iff :
    a ≤ b ↔ ∃ first ∈ rank? a.toModel.unpack, ∃ second ∈ rank? b.toModel.unpack,
      first ≤ second := by
  have unpacked : a ≤ b ↔ a.toModel.unpack.le b.toModel.unpack = true :=
    decide_eq_true_iff
  rw [unpacked, le_iff_rank]

theorem lt_iff :
    a < b ↔ ∃ first ∈ rank? a.toModel.unpack, ∃ second ∈ rank? b.toModel.unpack,
      first < second := by
  have unpacked : a < b ↔ a.toModel.unpack.lt b.toModel.unpack = true :=
    decide_eq_true_iff
  rw [unpacked, lt_iff_rank]

/-- Exactly what is a number has a place. -/
theorem isNaN_eq_false_iff {a : Float32} :
    a.isNaN = false ↔ ∃ place, place ∈ rank? a.toModel.unpack := by
  unfold Float32.isNaN Float32.Model.isNaN
  cases a.toModel.unpack with
  | notANumber =>
    constructor
    · intro number
      cases number
    · rintro ⟨place, placed⟩
      cases placed
  | zero => exact iff_of_true rfl ⟨_, rfl⟩
  | infinity sign => cases sign <;> exact iff_of_true rfl ⟨_, rfl⟩
  | finite sign => cases sign <;> exact iff_of_true rfl ⟨_, rfl⟩

theorem le_trans {a b c : Float32} (lower : a ≤ b) (upper : b ≤ c) : a ≤ c := by
  rw [le_iff] at lower upper ⊢
  rcases lower with ⟨first, firstPlace, middle, middlePlace, firstLe⟩
  rcases upper with ⟨middle', middlePlace', last, lastPlace, lastLe⟩
  obtain rfl := Option.mem_unique middlePlace middlePlace'
  exact ⟨first, firstPlace, last, lastPlace, firstLe.trans lastLe⟩

/-- Whatever compares with something compares with everything that does. -/
theorem le_total_of_le {low a b : Float32} (first : low ≤ a) (second : low ≤ b) :
    a ≤ b ∨ b ≤ a := by
  rw [le_iff] at first second
  rcases first with ⟨_, _, place, placed, _⟩
  rcases second with ⟨_, _, place', placed', _⟩
  rcases le_total place place' with before | after
  · exact Or.inl (le_iff.mpr ⟨place, placed, place', placed', before⟩)
  · exact Or.inr (le_iff.mpr ⟨place', placed', place, placed, after⟩)

/-! ## Numbers compare -/

theorem isNaN_of_le (before : a ≤ b) : a.isNaN = false ∧ b.isNaN = false := by
  rcases le_iff.mp before with ⟨place, placed, place', placed', _⟩
  exact ⟨isNaN_eq_false_iff.mpr ⟨place, placed⟩, isNaN_eq_false_iff.mpr ⟨place', placed'⟩⟩

theorem le_refl {a : Float32} (number : a.isNaN = false) : a ≤ a := by
  rcases isNaN_eq_false_iff.mp number with ⟨place, placed⟩
  exact le_iff.mpr ⟨place, placed, place, placed, le_rfl⟩

/-- Of two numbers one comes after the other or they are in order. -/
theorem not_le_iff_lt (number : a.isNaN = false) (number' : b.isNaN = false) :
    ¬ a ≤ b ↔ b < a := by
  rcases isNaN_eq_false_iff.mp number with ⟨place, placed⟩
  rcases isNaN_eq_false_iff.mp number' with ⟨place', placed'⟩
  rw [Option.mem_def] at placed placed'
  simp [le_iff, lt_iff, placed, placed']

theorem not_lt_iff_le (number : a.isNaN = false) (number' : b.isNaN = false) :
    ¬ a < b ↔ b ≤ a := by
  rw [← not_le_iff_lt number' number, not_not]

/-- What is moved into an interval lies in it, unless it is no number. -/
theorem le_of_clamp?_eq_some {x low high y : Float32} (clamped : Scalar.clamp? x low high = some y)
    (number : y.isNaN = false) : low ≤ y ∧ y ≤ high := by
  unfold Scalar.clamp? at clamped
  split at clamped
  next ordered =>
    rcases isNaN_of_le ordered with ⟨lowNumber, highNumber⟩
    have notCrossed : ¬ high < low := (not_lt_iff_le highNumber lowNumber).mpr ordered
    rw [Option.some.injEq] at clamped
    by_cases below : x < low
    · rw [if_pos below, if_neg notCrossed] at clamped
      exact clamped ▸ ⟨le_refl lowNumber, ordered⟩
    · rw [if_neg below] at clamped
      by_cases above : high < x
      · rw [if_pos above] at clamped
        exact clamped ▸ ⟨ordered, le_refl highNumber⟩
      · rw [if_neg above] at clamped
        subst clamped
        exact ⟨(not_lt_iff_le number lowNumber).mp below, (not_lt_iff_le highNumber number).mp above⟩
  next => cases clamped

end Single

end CodeAtlas
