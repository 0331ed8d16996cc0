import CodeAtlas.Proofs.Raster.Line
import CodeAtlas.Raster.Range

/-!
# Lines within range

A line overflows exactly if some number on the way of its pen is not a signed one
of 64 bits.  The check looks at the ends and at the extents, and walks only along
lines with a long extent: between the ends the pen stays between them, and the
running error of a short line is small.
-/

namespace CodeAtlas.PixelLine

variable {line : PixelLine} {count : ℕ} {reach : ℤ}

theorem isInRange_iff {number : ℤ} : Canvas.isInRange number = true ↔ FitsWord number := by
  simp [Canvas.isInRange, FitsWord]

/-! ## Between the ends -/

/-- No row is left in the wrong direction. -/
theorem OnCourse.risen_nonneg {risen : ℤ} {pen : Pen} (course : line.OnCourse count risen pen)
    (long : 0 < line.across) : 0 ≤ risen := by
  by_contra negative
  have tooLow : risen * line.across ≤ -1 * line.across :=
    mul_le_mul_of_nonneg_right (by omega) long.le
  have gone : 0 ≤ count * line.along := mul_nonneg (Int.natCast_nonneg _) line.along_nonneg
  have notBelow := course.notBelow
  omega

/-- A number on the way from one end to the other. -/
theorem between_of_steps {origin finish extent gone step : ℤ} (unit : step = 1 ∨ step = -1)
    (last : finish = origin + extent * step) (started : 0 ≤ gone) (within : gone ≤ extent) :
    min origin finish ≤ origin + gone * step ∧ origin + gone * step ≤ max origin finish := by
  rcases unit with rfl | rfl <;> omega

/-- The pen stays between the ends. -/
theorem pen_between (line : PixelLine) : ∀ count ≤ line.steps,
    (min line.x0 line.x1 ≤ (line.pen count).x ∧ (line.pen count).x ≤ max line.x0 line.x1) ∧
      min line.y0 line.y1 ≤ (line.pen count).y ∧ (line.pen count).y ≤ max line.y0 line.y1 := by
  induction line using flat_or_transposed with
  | exchange line exchanged =>
    intro count le
    have between := exchanged count (by simpa using le)
    rw [pen_transposed] at between
    exact between.symm
  | flat line flat =>
    intro count le
    have steps := steps_of_flat flat
    rcases Nat.eq_zero_or_pos count with rfl | started
    · simp [pen_zero, start]
    rcases exists_onCourse flat count with ⟨risen, course⟩
    rw [course.x, course.y]
    exact ⟨between_of_steps line.stepX_eq line.x1_eq (by omega) (by omega),
      between_of_steps line.stepY_eq line.y1_eq (course.risen_nonneg (by omega))
        (course.risen_le (by omega) (by omega))⟩

/-! ## Numbers within range -/

/-- All numbers that are looked at while the line is drawn with a pen of some reach
are signed ones of 64 bits. -/
structure InRange (line : PixelLine) (reach : ℤ) : Prop where
  prepared : ∀ number ∈ line.prepared, FitsWord number
  computed : ∀ count < line.steps, ∀ number ∈ line.computed (line.pen count), FitsWord number
  covered : ∀ cell ∈ line.trace,
    ∀ number ∈ [cell.1 - reach, cell.1 + reach, cell.2 - reach, cell.2 + reach], FitsWord number

theorem penOverflows_eq_false_iff {x y : ℤ} :
    penOverflows reach x y = false ↔
      ∀ number ∈ [x - reach, x + reach, y - reach, y + reach], FitsWord number := by
  simp only [penOverflows, List.any_eq_false, Bool.not_eq_true', Bool.not_eq_false, isInRange_iff]

theorem stepOverflows_eq_false_iff {pen : Pen} :
    line.stepOverflows pen = false ↔ FitsWord (2 * pen.error) ∧
      FitsWord (pen.error - (if -line.along ≤ 2 * pen.error then line.along else 0)) ∧
      FitsWord (line.next pen).error := by
  have crossed : (if -line.along ≤ 2 * pen.error then pen.error - line.along else pen.error) =
      pen.error - (if -line.along ≤ 2 * pen.error then line.along else 0) := by
    split <;> simp
  simp only [stepOverflows, crossed, Bool.or_eq_false_iff, Bool.not_eq_false', isInRange_iff,
    and_assoc]

/-- The walk looks at every step that is still to be made. -/
theorem walkOverflows_eq_false_iff {bound : ℕ} (le : count ≤ line.steps)
    (enough : line.steps ≤ count + bound) :
    line.walkOverflows bound (line.pen count) = false ↔
      ∀ step, count ≤ step → step < line.steps → line.stepOverflows (line.pen step) = false := by
  induction bound generalizing count with
  | zero =>
    refine iff_of_true rfl ?_
    intro step after before
    omega
  | succ bound ih =>
    have arrives := line.isDone_pen_iff count le
    rw [walkOverflows]
    by_cases last : count = line.steps
    · rw [arrives.mpr last]
      refine iff_of_true rfl ?_
      intro step after before
      omega
    · have onTheWay : line.isDone (line.pen count) = false :=
        Bool.eq_false_iff.mpr fun done => last (arrives.mp done)
      rw [onTheWay, ← pen_succ, Bool.not_false, Bool.true_and, Bool.or_eq_false_iff,
        ih (by omega) (by omega)]
      constructor
      · rintro ⟨now, later⟩ step after before
        rcases Nat.eq_or_lt_of_le after with rfl | still
        · exact now
        · exact later step still before
      · intro all
        exact ⟨all count le_rfl (by omega), fun step after => all step (by omega)⟩

/-- The error of a short line stays so small that no step overflows. -/
theorem stepOverflows_of_isShort (short : line.isShort = true) (less : count < line.steps) :
    line.stepOverflows (line.pen count) = false := by
  have power : Int.pow 2 61 = 2 ^ 61 := rfl
  simp only [isShort, power, Bool.and_eq_true, decide_eq_true_eq] at short
  have steps : (line.steps : ℤ) = max line.across line.along := by
    unfold steps across along
    omega
  have along := line.along_nonneg
  have before := line.abs_error_le count less.le
  have after := line.abs_error_le (count + 1) less
  rw [pen_succ] at after
  rw [abs_le] at before after
  rw [stepOverflows_eq_false_iff]
  unfold FitsWord
  refine ⟨by omega, ?_, by omega⟩
  split <;> omega

theorem mem_trace_iff {cell : ℤ × ℤ} :
    cell ∈ line.trace ↔ ∃ count ≤ line.steps, line.position count = cell := by
  simp only [trace_eq, List.mem_map, List.mem_range, Nat.lt_succ_iff]

/-- The pen covers no more around its positions than it does at the ends. -/
theorem covered_iff (line : PixelLine) (reach : ℤ) :
    (∀ cell ∈ line.trace,
      ∀ number ∈ [cell.1 - reach, cell.1 + reach, cell.2 - reach, cell.2 + reach],
        FitsWord number) ↔
      penOverflows reach line.x0 line.y0 = false ∧ penOverflows reach line.x1 line.y1 = false := by
  rw [penOverflows_eq_false_iff, penOverflows_eq_false_iff]
  constructor
  · intro covered
    have arrived := isDone_iff.mp ((line.isDone_pen_iff line.steps le_rfl).mpr rfl)
    exact ⟨covered (line.x0, line.y0) (mem_trace_iff.mpr ⟨0, Nat.zero_le _, rfl⟩),
      covered (line.x1, line.y1)
        (mem_trace_iff.mpr ⟨line.steps, le_rfl, by rw [position, arrived.1, arrived.2]⟩)⟩
  · rintro ⟨first, last⟩ cell mem
    rcases mem_trace_iff.mp mem with ⟨count, le, rfl⟩
    have between := line.pen_between count le
    simp only [List.forall_mem_cons, FitsWord, position] at first last ⊢
    refine ⟨?_, ?_, ?_, ?_, by simp⟩ <;> omega

/-- A line overflows exactly if a number on the way of its pen is out of range. -/
theorem overflows_eq_false_iff (line : PixelLine) (reach : ℤ) :
    line.overflows reach = false ↔ line.InRange reach := by
  have walked := walkOverflows_eq_false_iff (Nat.zero_le line.steps)
    (line.steps_le_bound.trans (Nat.zero_add _).ge)
  rw [overflows, Bool.or_eq_false_iff, Bool.or_eq_false_iff, Bool.or_eq_false_iff,
    Bool.or_eq_false_iff, ← covered_iff, Bool.not_eq_false', Bool.not_eq_false', isInRange_iff,
    isInRange_iff, Bool.and_eq_false_iff, Bool.not_eq_false', ← pen_zero, walked]
  constructor
  · rintro ⟨⟨⟨covered, acrossFits⟩, alongFits⟩, errors⟩
    have steps : ∀ count < line.steps, line.stepOverflows (line.pen count) = false := by
      intro count less
      rcases errors with short | clear
      · exact stepOverflows_of_isShort short less
      · exact clear count (Nat.zero_le _) less
    refine ⟨?_, ?_, covered⟩
    · simp only [FitsWord, across, along] at acrossFits alongFits
      simp only [prepared, across, along, FitsWord, List.forall_mem_cons]
      refine ⟨?_, ?_, ?_, ?_, ?_, ?_, by simp⟩ <;> omega
    · intro count less
      have place := covered _ (mem_trace_iff.mpr ⟨count + 1, less, rfl⟩)
      have numbers := stepOverflows_eq_false_iff.mp (steps count less)
      simp only [List.forall_mem_cons, position, pen_succ] at place
      simp only [computed, List.forall_mem_cons]
      refine ⟨numbers.1, numbers.2.1, numbers.2.2, ?_, ?_, by simp⟩
      all_goals
        unfold FitsWord at place ⊢
        omega
  · intro inRange
    refine ⟨⟨⟨inRange.covered, inRange.prepared _ (by simp [prepared])⟩,
      inRange.prepared _ (by simp [prepared])⟩, Or.inr ?_⟩
    intro count _ less
    have numbers := inRange.computed count less
    simp only [computed, List.forall_mem_cons] at numbers
    exact stepOverflows_eq_false_iff.mpr ⟨numbers.1, numbers.2.1, numbers.2.2.1⟩

/-- Near zero no line overflows. -/
theorem inRange_of_within (within : line.Within (2 ^ 60)) (nonneg : 0 ≤ reach)
    (small : reach ≤ 2 ^ 60) : line.InRange reach where
  prepared _ := fitsWord_of_mem_prepared within
  computed _ less _ := fitsWord_of_mem_computed within less
  covered := by
    rw [covered_iff, penOverflows_eq_false_iff, penOverflows_eq_false_iff]
    simp only [Within, abs_le] at within
    simp only [List.forall_mem_cons, FitsWord]
    refine ⟨⟨?_, ?_, ?_, ?_, by simp⟩, ?_, ?_, ?_, ?_, by simp⟩ <;> omega

end CodeAtlas.PixelLine
