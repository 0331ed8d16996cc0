import CodeAtlas.Raster.Line
import Mathlib.Algebra.Order.Field.Basic
import Mathlib.Data.List.Range
import Mathlib.Data.Rat.Defs
import Mathlib.Logic.Function.Iterate
import Mathlib.Tactic.FieldSimp
import Mathlib.Tactic.Linarith
import Mathlib.Tactic.Ring

/-!
# The way of the pen

A line is flat if it goes at least as far across as along.  On a flat line the
pen moves across with every step, and the running error tells how far the exact
line has left the row of the pen, so the pen changes its row as soon as the next
one is at least as near.  A steep line is a flat one with its axes exchanged, and
the pen does not notice the exchange: only the sign of the error changes.

So the pen arrives after as many steps as the longer extent has, and on its way
it stays within half a pixel of the exact line.
-/

namespace CodeAtlas

/-- The pen with its axes exchanged. -/
def Pen.transposed (pen : Pen) : Pen :=
  ⟨pen.y, pen.x, -pen.error⟩

namespace PixelLine

variable {line : PixelLine} {count : ℕ}

/-- The number of steps along the longer extent. -/
def steps (line : PixelLine) : ℕ :=
  max (line.x1 - line.x0).natAbs (line.y1 - line.y0).natAbs

/-- The pen after a number of steps. -/
def pen (line : PixelLine) (count : ℕ) : Pen :=
  line.next^[count] line.start

/-- Where the pen stands after a number of steps. -/
def position (line : PixelLine) (count : ℕ) : ℤ × ℤ :=
  ((line.pen count).x, (line.pen count).y)

theorem pen_succ (line : PixelLine) (count : ℕ) :
    line.pen (count + 1) = line.next (line.pen count) :=
  Function.iterate_succ_apply' line.next count line.start

/-! ## Extents and directions -/

section

variable (line)

theorem across_nonneg : 0 ≤ line.across :=
  Int.natCast_nonneg _

theorem along_nonneg : 0 ≤ line.along :=
  Int.natCast_nonneg _

theorem stepX_eq : line.stepX = 1 ∨ line.stepX = -1 := by
  unfold stepX
  split <;> simp

theorem stepY_eq : line.stepY = 1 ∨ line.stepY = -1 := by
  unfold stepY
  split <;> simp

/-- As many steps as the extent has lead across to the end. -/
theorem x1_eq : line.x1 = line.x0 + line.across * line.stepX := by
  unfold across stepX
  split <;> omega

/-- As many steps as the extent has lead along to the end. -/
theorem y1_eq : line.y1 = line.y0 + line.along * line.stepY := by
  unfold along stepY
  split <;> omega

end

theorem steps_of_flat (flat : line.along ≤ line.across) :
    (line.steps : ℤ) = line.across := by
  unfold steps across along at *
  omega

/-! ## Exchanging the axes -/

/-- The line with its axes exchanged. -/
def transposed (line : PixelLine) : PixelLine :=
  ⟨line.y0, line.x0, line.y1, line.x1⟩

@[simp]
theorem across_transposed (line : PixelLine) : line.transposed.across = line.along :=
  rfl

@[simp]
theorem along_transposed (line : PixelLine) : line.transposed.along = line.across :=
  rfl

@[simp]
theorem steps_transposed (line : PixelLine) : line.transposed.steps = line.steps :=
  max_comm _ _

theorem next_transposed (line : PixelLine) (pen : Pen) :
    line.transposed.next pen.transposed = (line.next pen).transposed := by
  -- The tests for the two axes are each other's mirror image in the error.
  have horizontal : -line.across ≤ 2 * -pen.error ↔ 2 * pen.error ≤ line.across := by omega
  have vertical : 2 * -pen.error ≤ line.along ↔ -line.along ≤ 2 * pen.error := by omega
  simp only [next, Pen.transposed, across_transposed, along_transposed, horizontal, vertical]
  congr 1
  split <;> split <;> omega

theorem pen_transposed (line : PixelLine) (count : ℕ) :
    line.transposed.pen count = (line.pen count).transposed := by
  induction count with
  | zero =>
    have error : line.along - line.across = -(line.across - line.along) := by omega
    simp only [pen, Function.iterate_zero, id_eq, start, Pen.transposed, across_transposed,
      along_transposed, error]
    rfl
  | succ count ih =>
    rw [pen_succ, pen_succ, ih, next_transposed]

/-- Whatever holds of flat lines and does not depend on the names of the axes
holds of all lines. -/
theorem flat_or_transposed {motive : PixelLine → Prop}
    (flat : ∀ line : PixelLine, line.along ≤ line.across → motive line)
    (exchange : ∀ line : PixelLine, motive line.transposed → motive line)
    (line : PixelLine) : motive line := by
  rcases le_total line.along line.across with isFlat | isSteep
  · exact flat line isFlat
  · exact exchange line (flat line.transposed isSteep)

/-! ## Flat lines -/

/-- The pen of a flat line after some steps, of which some changed its row.  The
exact line is no more than half a pixel away from that row; all is said in units
of the longer extent to stay with whole numbers. -/
structure OnCourse (line : PixelLine) (count : ℕ) (risen : ℤ) (pen : Pen) : Prop where
  x : pen.x = line.x0 + count * line.stepX
  y : pen.y = line.y0 + risen * line.stepY
  error : pen.error = (risen + 1) * line.across - (count + 1) * line.along
  notAbove : 2 * (risen * line.across) ≤ 2 * (count * line.along) + line.across
  notBelow : 2 * (count * line.along) ≤ 2 * (risen * line.across) + line.across

theorem onCourse_start (line : PixelLine) : line.OnCourse 0 0 line.start where
  x := by simp [start]
  y := by simp [start]
  error := by simp [start]
  notAbove := by simpa using line.across_nonneg
  notBelow := by simpa using line.across_nonneg

/-- One step of the pen of a flat line: across in any case, and to the next row
as soon as that is at least as near. -/
theorem OnCourse.next (flat : line.along ≤ line.across) {risen : ℤ} {pen : Pen}
    (course : line.OnCourse count risen pen) :
    ∃ risen', (risen' = risen ∨ risen' = risen + 1) ∧
      line.OnCourse (count + 1) risen' (line.next pen) := by
  rcases course with ⟨x, y, error, notAbove, notBelow⟩
  have nonneg := line.along_nonneg
  have risenMore : (risen + 1) * line.across = risen * line.across + line.across := by ring
  have goneMore : ((count : ℤ) + 1) * line.along = count * line.along + line.along := by ring
  have horizontal : -line.along ≤ 2 * pen.error := by
    rw [error, risenMore, goneMore]
    omega
  by_cases vertical : 2 * pen.error ≤ line.across
  · have moved : line.next pen =
        ⟨pen.x + line.stepX, pen.y + line.stepY, pen.error - line.along + line.across⟩ := by
      simp [PixelLine.next, horizontal, vertical]
    rw [error, risenMore, goneMore] at vertical
    refine ⟨risen + 1, Or.inr rfl, ?_⟩
    rw [moved]
    constructor
    · push_cast
      rw [x]
      ring
    · rw [y]
      ring
    · push_cast
      rw [error]
      ring
    · push_cast
      rw [risenMore, goneMore]
      omega
    · push_cast
      rw [risenMore, goneMore]
      omega
  · have moved : line.next pen =
        ⟨pen.x + line.stepX, pen.y, pen.error - line.along⟩ := by
      simp [PixelLine.next, horizontal, vertical]
    rw [error, risenMore, goneMore] at vertical
    refine ⟨risen, Or.inl rfl, ?_⟩
    rw [moved]
    constructor
    · push_cast
      rw [x]
      ring
    · exact y
    · push_cast
      rw [error]
      ring
    · push_cast
      rw [goneMore]
      omega
    · push_cast
      rw [goneMore]
      omega

/-- The whole way of the pen of a flat line. -/
theorem exists_onCourse (flat : line.along ≤ line.across) (count : ℕ) :
    ∃ risen, line.OnCourse count risen (line.pen count) := by
  induction count with
  | zero => exact ⟨0, line.onCourse_start⟩
  | succ count ih =>
    rcases ih with ⟨risen, course⟩
    rcases course.next flat with ⟨risen', _, course'⟩
    exact ⟨risen', line.pen_succ count ▸ course'⟩

/-- No more rows are changed than the line has. -/
theorem OnCourse.risen_le {risen : ℤ} {pen : Pen} (course : line.OnCourse count risen pen)
    (long : 0 < line.across) (le : (count : ℤ) ≤ line.across) : risen ≤ line.along := by
  by_contra beyond
  have tooHigh : (line.along + 1) * line.across ≤ risen * line.across :=
    mul_le_mul_of_nonneg_right (by omega) long.le
  have reached : count * line.along ≤ line.across * line.along :=
    mul_le_mul_of_nonneg_right le line.along_nonneg
  have notAbove := course.notAbove
  linarith [add_mul line.along 1 line.across, mul_comm line.across line.along]

/-- At the end of the way all rows have been changed. -/
theorem OnCourse.risen_eq {risen : ℤ} {pen : Pen} (course : line.OnCourse count risen pen)
    (long : 0 < line.across) (arrived : (count : ℤ) = line.across) : risen = line.along := by
  apply le_antisymm (course.risen_le long arrived.le)
  by_contra before
  have tooLow : (risen + 1) * line.across ≤ line.along * line.across :=
    mul_le_mul_of_nonneg_right (by omega) long.le
  have notBelow := course.notBelow
  rw [arrived] at notBelow
  linarith [add_mul risen 1 line.across, mul_comm line.across line.along]

/-! ## Arrival -/

theorem isDone_iff {pen : Pen} :
    line.isDone pen = true ↔ pen.x = line.x1 ∧ pen.y = line.y1 := by
  simp [isDone]

section

variable (line)

theorem pen_zero : line.pen 0 = line.start :=
  rfl

/-- The pen arrives with the last step and not before. -/
theorem isDone_pen_iff :
    ∀ count ≤ line.steps, (line.isDone (line.pen count) = true ↔ count = line.steps) := by
  induction line using flat_or_transposed with
  | exchange line exchanged =>
    intro count le
    have arrives := exchanged count (by simpa using le)
    rw [isDone_iff, pen_transposed, steps_transposed] at arrives
    rw [isDone_iff, and_comm]
    exact arrives
  | flat line flat =>
    intro count le
    have steps := steps_of_flat flat
    rw [isDone_iff]
    rcases Nat.eq_zero_or_pos line.steps with point | long
    · obtain rfl : count = 0 := by omega
      have x1 := line.x1_eq
      have y1 := line.y1_eq
      have noRows : line.along = 0 := le_antisymm (by omega) line.along_nonneg
      rw [show line.across = 0 by omega] at x1
      rw [noRows] at y1
      simp [pen_zero, start, point, x1, y1]
    · rcases exists_onCourse flat count with ⟨risen, course⟩
      constructor
      · rintro ⟨arrived, -⟩
        rw [course.x, line.x1_eq] at arrived
        rcases line.stepX_eq with right | left
        · rw [right] at arrived
          omega
        · rw [left] at arrived
          omega
      · rintro rfl
        have risen := course.risen_eq (by omega) steps
        rw [course.x, course.y, risen, steps]
        exact ⟨line.x1_eq.symm, line.y1_eq.symm⟩

/-- However many rounds are allowed beyond those needed, the walk visits the
positions up to the end of the line. -/
theorem walk_eq_foldl {σ : Type} (visit : σ → ℤ × ℤ → σ) {bound count : ℕ} (state : σ)
    (le : count ≤ line.steps) (enough : line.steps ≤ count + bound) :
    line.walk visit bound (line.pen count) state =
      ((List.range' count (line.steps + 1 - count)).map line.position).foldl visit state := by
  induction bound generalizing count state with
  | zero =>
    obtain rfl : count = line.steps := by omega
    simp [walk, position]
  | succ bound ih =>
    have arrives := line.isDone_pen_iff count le
    rw [show line.steps + 1 - count = line.steps - count + 1 by omega, List.range'_succ,
      List.map_cons, List.foldl_cons]
    by_cases last : count = line.steps
    · subst last
      simp [walk, arrives.mpr rfl, position]
    · have onTheWay : line.isDone (line.pen count) = false :=
        Bool.eq_false_iff.mpr fun done => last (arrives.mp done)
      rw [walk, onTheWay, ← pen_succ]
      have rest := ih (visit state (line.position count))
        (show count + 1 ≤ line.steps by omega) (by omega)
      rw [show line.steps + 1 - (count + 1) = line.steps - count by omega] at rest
      exact rest

/-- All positions from the start on, whatever is done with them. -/
theorem walk_start_eq_foldl {σ : Type} (visit : σ → ℤ × ℤ → σ) (state : σ) {bound : ℕ}
    (enough : line.steps ≤ bound) :
    line.walk visit bound line.start state =
      ((List.range (line.steps + 1)).map line.position).foldl visit state := by
  rw [List.range_eq_range']
  exact line.walk_eq_foldl visit state (Nat.zero_le _) (by omega)

theorem steps_le_bound : line.steps ≤ (line.across + line.along).toNat := by
  unfold steps across along
  omega

/-- The trace has the position before the first step and the one after each
step. -/
theorem trace_eq : line.trace = (List.range (line.steps + 1)).map line.position := by
  rw [trace, fold, walk_start_eq_foldl _ _ _ line.steps_le_bound, List.foldl_flip_cons_eq_append',
    List.append_nil, List.reverse_reverse]

theorem fold_eq_foldl_trace {σ : Type} (visit : σ → ℤ × ℤ → σ) (state : σ) :
    line.fold visit state = line.trace.foldl visit state := by
  rw [fold, walk_start_eq_foldl _ _ _ line.steps_le_bound, trace_eq]

end

/-! ## Each step -/

/-- From one position to the next it is at most one pixel in each direction, and
never away from the end. -/
structure Approaches (line : PixelLine) (here there : ℤ × ℤ) : Prop where
  stepAcross : |there.1 - here.1| ≤ 1
  stepAlong : |there.2 - here.2| ≤ 1
  nearerAcross : |line.x1 - there.1| ≤ |line.x1 - here.1|
  nearerAlong : |line.y1 - there.2| ≤ |line.y1 - here.2|

theorem position_transposed (line : PixelLine) (count : ℕ) :
    line.transposed.position count = (line.position count).swap := by
  simp [position, pen_transposed, Pen.transposed]

/-- Going on by steps of one pixel, as long as the end is not passed, leads
nearer to it. -/
theorem abs_sub_le_of_steps (origin : ℤ) {extent gone more step : ℤ} (unit : step = 1 ∨ step = -1)
    (forward : gone = more ∨ more = gone + 1) (within : more ≤ extent) :
    |origin + more * step - (origin + gone * step)| ≤ 1 ∧
      |origin + extent * step - (origin + more * step)| ≤
        |origin + extent * step - (origin + gone * step)| := by
  have moved : origin + more * step - (origin + gone * step) = (more - gone) * step := by ring
  have left : origin + extent * step - (origin + more * step) = (extent - more) * step := by ring
  have before : origin + extent * step - (origin + gone * step) = (extent - gone) * step := by ring
  have size : |step| = 1 := by
    rcases unit with rfl | rfl <;> rfl
  rw [moved, left, before, abs_mul, abs_mul, abs_mul, size, mul_one, mul_one, mul_one,
    abs_of_nonneg (by omega), abs_of_nonneg (by omega), abs_of_nonneg (by omega)]
  omega

theorem approaches_position (line : PixelLine) :
    ∀ count < line.steps, line.Approaches (line.position count) (line.position (count + 1)) := by
  induction line using flat_or_transposed with
  | exchange line exchanged =>
    intro count less
    have approaches := exchanged count (by simpa using less)
    rw [position_transposed, position_transposed] at approaches
    exact ⟨approaches.stepAlong, approaches.stepAcross, approaches.nearerAlong,
      approaches.nearerAcross⟩
  | flat line flat =>
    intro count less
    have steps := steps_of_flat flat
    rcases exists_onCourse flat count with ⟨risen, course⟩
    rcases course.next flat with ⟨risen', forward, course'⟩
    rw [← pen_succ] at course'
    have oneMore : (count : ℤ) = (count + 1 : ℕ) ∨ ((count + 1 : ℕ) : ℤ) = count + 1 := by omega
    have notBeyond : ((count + 1 : ℕ) : ℤ) ≤ line.across := by omega
    have across := abs_sub_le_of_steps line.x0 line.stepX_eq oneMore notBeyond
    have along := abs_sub_le_of_steps line.y0 line.stepY_eq (forward.imp_left Eq.symm)
      (course'.risen_le (by omega) notBeyond)
    rw [← line.x1_eq, ← course.x, ← course'.x] at across
    rw [← line.y1_eq, ← course.y, ← course'.y] at along
    exact ⟨across.1, along.1, across.2, along.2⟩

/-- The pen never goes farther from the end than it was at the start. -/
theorem abs_sub_position_le (line : PixelLine) (le : count ≤ line.steps) :
    |line.x1 - (line.pen count).x| ≤ line.across ∧ |line.y1 - (line.pen count).y| ≤ line.along := by
  induction count with
  | zero => simp [pen_zero, start, across, along]
  | succ count ih =>
    have before := ih (by omega)
    have approaches := line.approaches_position count (by omega)
    exact ⟨approaches.nearerAcross.trans before.1, approaches.nearerAlong.trans before.2⟩

/-! ## The exact line -/

/-- The position is within half a pixel of a point of the exact line: of the one
in its column if the line is flat, of the one in its row if it is steep. -/
structure Hugs (line : PixelLine) (cell : ℤ × ℤ) : Prop where
  inColumn : line.along ≤ line.across → ∃ part : ℚ, 0 ≤ part ∧ part ≤ 1 ∧
    (cell.1 : ℚ) = line.x0 + part * (line.x1 - line.x0) ∧
    |(cell.2 : ℚ) - (line.y0 + part * (line.y1 - line.y0))| ≤ 1 / 2
  inRow : line.across ≤ line.along → ∃ part : ℚ, 0 ≤ part ∧ part ≤ 1 ∧
    (cell.2 : ℚ) = line.y0 + part * (line.y1 - line.y0) ∧
    |(cell.1 : ℚ) - (line.x0 + part * (line.x1 - line.x0))| ≤ 1 / 2

theorem exists_part_of_flat (flat : line.along ≤ line.across)
    (le : count ≤ line.steps) : ∃ part : ℚ, 0 ≤ part ∧ part ≤ 1 ∧
      ((line.position count).1 : ℚ) = line.x0 + part * (line.x1 - line.x0) ∧
      |((line.position count).2 : ℚ) - (line.y0 + part * (line.y1 - line.y0))| ≤ 1 / 2 := by
  rcases Nat.eq_zero_or_pos count with rfl | started
  · exact ⟨0, by simp [position, pen_zero, start]⟩
  rcases exists_onCourse flat count with ⟨risen, course⟩
  have steps := steps_of_flat flat
  have long : (0 : ℚ) < line.across := by
    exact_mod_cast (show 0 < line.across by omega)
  have gone : (count : ℚ) ≤ line.across := by
    exact_mod_cast (show (count : ℤ) ≤ line.across by omega)
  have extentX : (line.x1 - line.x0 : ℚ) = line.across * line.stepX := by
    rw [line.x1_eq]
    push_cast
    ring
  have extentY : (line.y1 - line.y0 : ℚ) = line.along * line.stepY := by
    rw [line.y1_eq]
    push_cast
    ring
  refine ⟨count / line.across, by positivity, (div_le_one long).mpr gone, ?_, ?_⟩
  · rw [extentX, position, course.x]
    push_cast
    field_simp
  · have notAbove : 2 * ((risen : ℚ) * line.across) ≤ 2 * (count * line.along) + line.across := by
      exact_mod_cast course.notAbove
    have notBelow : 2 * ((count : ℚ) * line.along) ≤ 2 * (risen * line.across) + line.across := by
      exact_mod_cast course.notBelow
    have off : ((line.position count).2 : ℚ) - (line.y0 + count / line.across * (line.y1 - line.y0))
        = (risen * line.across - count * line.along) / line.across * line.stepY := by
      rw [extentY, position, course.y]
      push_cast
      field_simp
      ring
    have unit : |(line.stepY : ℚ)| = 1 := by
      rcases line.stepY_eq with down | up
      · simp [down]
      · simp [up]
    rw [off, abs_mul, unit, mul_one, abs_div, abs_of_pos long, div_le_iff₀ long, abs_le]
    constructor <;> linarith

theorem hugs_position (line : PixelLine) (le : count ≤ line.steps) :
    line.Hugs (line.position count) where
  inColumn flat := exists_part_of_flat flat le
  inRow steep := by
    have isFlat : line.transposed.along ≤ line.transposed.across := steep
    have exchanged := exists_part_of_flat isFlat (le.trans_eq line.steps_transposed.symm)
    rw [position_transposed] at exchanged
    exact exchanged

/-! ## The size of the numbers -/

/-- The running error stays within one and a half times the longer extent. -/
theorem abs_error_le (line : PixelLine) :
    ∀ count ≤ line.steps, |2 * (line.pen count).error| ≤ 3 * line.steps := by
  induction line using flat_or_transposed with
  | exchange line exchanged =>
    intro count le
    have bounded := exchanged count (by simpa using le)
    rw [pen_transposed, steps_transposed, Pen.transposed, mul_neg, abs_neg] at bounded
    exact bounded
  | flat line flat =>
    intro count le
    rcases exists_onCourse flat count with ⟨risen, course⟩
    have nonneg := line.along_nonneg
    have notAbove := course.notAbove
    have notBelow := course.notBelow
    have error : (line.pen count).error =
        risen * line.across + line.across - (count * line.along + line.along) := by
      rw [course.error]
      ring
    rw [steps_of_flat flat, error, abs_le]
    constructor <;> linarith

/-- All ends of the line lie within some distance of zero. -/
def Within (line : PixelLine) (limit : ℤ) : Prop :=
  |line.x0| ≤ limit ∧ |line.y0| ≤ limit ∧ |line.x1| ≤ limit ∧ |line.y1| ≤ limit

/-- What is computed before the first step. -/
def prepared (line : PixelLine) : List ℤ :=
  [line.x1 - line.x0, line.across, line.y1 - line.y0, line.along, -line.along,
    line.across - line.along]

/-- What is computed for one step: the doubled error, the error after each of the
two tests, and the new position. -/
def computed (line : PixelLine) (pen : Pen) : List ℤ :=
  [2 * pen.error, pen.error - (if -line.along ≤ 2 * pen.error then line.along else 0),
    (line.next pen).error, (line.next pen).x, (line.next pen).y]

/-- The number is a signed one of 64 bits. -/
def FitsWord (number : ℤ) : Prop :=
  -2 ^ 63 ≤ number ∧ number < 2 ^ 63

theorem Within.extents_le {limit : ℤ} (within : line.Within limit) :
    line.across ≤ 2 * limit ∧ line.along ≤ 2 * limit ∧ (line.steps : ℤ) ≤ 2 * limit := by
  simp only [Within, abs_le] at within
  unfold across along steps
  omega

theorem fitsWord_of_mem_prepared (within : line.Within (2 ^ 60)) {number : ℤ}
    (mem : number ∈ line.prepared) : FitsWord number := by
  have extents := within.extents_le
  have across := line.across_nonneg
  have along := line.along_nonneg
  simp only [Within, abs_le] at within
  simp only [prepared, List.mem_cons, List.not_mem_nil, or_false] at mem
  unfold FitsWord
  omega

theorem fitsWord_of_mem_computed (within : line.Within (2 ^ 60)) (less : count < line.steps)
    {number : ℤ} (mem : number ∈ line.computed (line.pen count)) :
    FitsWord number := by
  have extents := within.extents_le
  have along := line.along_nonneg
  have errorBefore := line.abs_error_le count less.le
  have errorAfter := line.abs_error_le (count + 1) less
  have place := line.abs_sub_position_le (Nat.succ_le_of_lt less)
  rw [pen_succ] at errorAfter place
  simp only [Within, abs_le] at within place errorBefore errorAfter
  simp only [computed, List.mem_cons, List.not_mem_nil, or_false] at mem
  unfold FitsWord
  rcases mem with rfl | rfl | rfl | rfl | rfl
  · omega
  · split <;> omega
  · omega
  · omega
  · omega

/-! ## The whole way -/

/-- The pen arrives after exactly as many steps as the longer extent has, so no
larger bound on the rounds of the walk shows in what it visits.  The positions
lead from the one end to the other by single pixels, never away from the end, and
hug the exact line.  For ends within `2 ^ 60` of zero all numbers on the way are
signed ones of 64 bits. -/
theorem trace_traverses (line : PixelLine) :
    (∀ count ≤ line.steps, (line.isDone (line.pen count) = true ↔ count = line.steps)) ∧
      (∀ (σ : Type) (visit : σ → ℤ × ℤ → σ) (state : σ), ∀ bound ≥ line.steps,
        line.walk visit bound line.start state = line.trace.foldl visit state) ∧
      line.trace = (List.range (line.steps + 1)).map line.position ∧
      line.trace.length = max (line.x1 - line.x0).natAbs (line.y1 - line.y0).natAbs + 1 ∧
      line.trace.head? = some (line.x0, line.y0) ∧
      line.trace.getLast? = some (line.x1, line.y1) ∧
      line.trace.IsChain line.Approaches ∧
      (∀ cell ∈ line.trace, line.Hugs cell) ∧
      (line.Within (2 ^ 60) → (∀ number ∈ line.prepared, FitsWord number) ∧
        ∀ count < line.steps, ∀ number ∈ line.computed (line.pen count), FitsWord number) := by
  refine ⟨line.isDone_pen_iff, ?_, line.trace_eq, ?_, ?_, ?_, ?_, ?_, ?_⟩
  · intro σ visit state bound enough
    rw [trace_eq, walk_start_eq_foldl _ _ _ enough]
  · rw [trace_eq, List.length_map, List.length_range, steps]
  · rw [trace_eq, List.range_succ_eq_map]
    rfl
  · have arrived := isDone_iff.mp ((line.isDone_pen_iff line.steps le_rfl).mpr rfl)
    rw [trace_eq, List.range_succ, List.map_append, List.map_singleton, List.getLast?_concat,
      position, arrived.1, arrived.2]
  · rw [trace_eq, List.isChain_map, List.isChain_range_succ]
    exact line.approaches_position
  · intro cell mem
    rw [trace_eq] at mem
    rcases List.mem_map.mp mem with ⟨count, listed, rfl⟩
    exact line.hugs_position (Nat.le_of_lt_succ (List.mem_range.mp listed))
  · intro within
    exact ⟨fun _ => fitsWord_of_mem_prepared within,
      fun _ less _ => fitsWord_of_mem_computed within less⟩

/-- The longest line within the limit, but for its last rows. -/
theorem trace_traverses_longest :
    let line : PixelLine := ⟨-2 ^ 60, 2 ^ 60, 2 ^ 60, 7 - 2 ^ 60⟩
    line.Within (2 ^ 60) ∧ line.trace.length = 2 ^ 61 + 1 ∧
      line.trace.getLast? = some (2 ^ 60, 7 - 2 ^ 60) ∧
      ∀ count < line.steps, ∀ number ∈ line.computed (line.pen count), FitsWord number := by
  intro line
  have within : line.Within (2 ^ 60) := by
    unfold Within
    decide
  rcases trace_traverses line with ⟨_, _, _, length, _, last, _, _, fits⟩
  exact ⟨within, length.trans (by decide), last, (fits within).2⟩

example : (⟨0, 0, 5, -2⟩ : PixelLine).trace =
    [(0, 0), (1, 0), (2, -1), (3, -1), (4, -2), (5, -2)] := by
  decide

end PixelLine

end CodeAtlas
