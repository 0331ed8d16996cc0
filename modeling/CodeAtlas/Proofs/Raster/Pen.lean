import CodeAtlas.Proofs.Raster.Canvas
import CodeAtlas.Proofs.Raster.Range
import Mathlib.Data.Finset.Prod

/-!
# Lines drawn with a square pen

The pen reaches equally far to all sides of its position, so it is always an odd
number of pixels wide: as wide as asked for if that number is odd, and one pixel
less if it is even.
-/

namespace CodeAtlas

namespace Canvas

/-! ## The pen -/

/-- The numbers from `low` to `high`, both of them included. -/
def numbers (low high : ℤ) : Finset ℤ :=
  (span low (high + 1)).toFinset

@[simp]
theorem mem_numbers {low high number : ℤ} :
    number ∈ numbers low high ↔ low ≤ number ∧ number ≤ high := by
  rw [numbers, List.mem_toFinset, mem_span, Int.lt_add_one_iff]

theorem card_numbers (low high : ℤ) : (numbers low high).card = (high + 1 - low).toNat := by
  have nodup : (span low (high + 1)).Nodup := (pairwise_lt_span _ _).imp ne_of_lt
  rw [numbers, List.toFinset_card_of_nodup nodup, span, List.length_map, List.length_range]

theorem numbers_nonempty {low high : ℤ} (some : low ≤ high) : (numbers low high).Nonempty :=
  ⟨low, mem_numbers.mpr ⟨le_rfl, some⟩⟩

/-- The pixels under the pen at a position. -/
def penSquare (thickness : ℤ) (position : ℤ × ℤ) : Finset (ℤ × ℤ) :=
  numbers (position.1 - penReach thickness) (position.1 + penReach thickness) ×ˢ
    numbers (position.2 - penReach thickness) (position.2 + penReach thickness)

/-- The width of the pen: the thickness if that is odd, else one less. -/
def penSide (thickness : ℤ) : ℤ :=
  if thickness % 2 = 0 then thickness - 1 else thickness

theorem penReach_nonneg (thickness : ℤ) : 0 ≤ penReach thickness := by
  unfold penReach
  omega

theorem two_mul_penReach {thickness : ℤ} (thick : 1 ≤ thickness) :
    2 * penReach thickness + 1 = penSide thickness := by
  unfold penReach penSide
  split <;> omega

theorem mem_penSquare {thickness : ℤ} {position cell : ℤ × ℤ} :
    cell ∈ penSquare thickness position ↔
      (position.1 - penReach thickness ≤ cell.1 ∧ cell.1 ≤ position.1 + penReach thickness) ∧
        position.2 - penReach thickness ≤ cell.2 ∧ cell.2 ≤ position.2 + penReach thickness := by
  simp [penSquare, Finset.mem_product]

theorem card_penReach {thickness : ℤ} (thick : 1 ≤ thickness) (number : ℤ) :
    ((numbers (number - penReach thickness) (number + penReach thickness)).card : ℤ) =
      penSide thickness := by
  have nonneg := penReach_nonneg thickness
  rw [card_numbers, ← two_mul_penReach thick]
  omega

theorem card_penSquare {thickness : ℤ} (thick : 1 ≤ thickness) (position : ℤ × ℤ) :
    ((penSquare thickness position).card : ℤ) = penSide thickness * penSide thickness := by
  rw [penSquare, Finset.card_product, Nat.cast_mul, card_penReach thick, card_penReach thick]

/-! ## Pressing the pen -/

variable {R : Type} [Scalar R]

/-- The pixels of the canvas that one press of the pen paints, row by row. -/
def stampCells (thickness : ℤ) (canvas : Canvas) (position : ℤ × ℤ) : List (ℤ × ℤ) :=
  (canvas.rows (position.2 - penReach thickness) (position.2 + penReach thickness + 1)).flatMap
    fun y => (canvas.columns (position.1 - penReach thickness)
      (position.1 + penReach thickness + 1)).map fun x => (x, y)

/-- All positions of the canvas. -/
def area (canvas : Canvas) : Finset (ℤ × ℤ) :=
  numbers 0 (canvas.width - 1) ×ˢ numbers 0 (canvas.height - 1)

theorem mem_stampCells {thickness : ℤ} {canvas : Canvas} {position cell : ℤ × ℤ} :
    cell ∈ stampCells thickness canvas position ↔
      cell ∈ penSquare thickness position ∩ canvas.area := by
  rcases cell with ⟨x, y⟩
  simp only [stampCells, area, List.mem_flatMap, List.mem_map, mem_rows, mem_columns,
    Finset.mem_inter, mem_penSquare, Finset.mem_product, mem_numbers, Prod.mk.injEq]
  constructor
  · rintro ⟨y', inRows, x', inColumns, rfl, rfl⟩
    omega
  · intro inside
    exact ⟨y, by omega, x, by omega, rfl, rfl⟩

theorem stampCells_congr {thickness : ℤ} {canvas other : Canvas}
    (sameWidth : canvas.width = other.width) (sameHeight : canvas.height = other.height) :
    stampCells thickness canvas = stampCells thickness other := by
  funext position
  simp only [stampCells, rows, columns, sameWidth, sameHeight]

theorem stamp_eq_paint (canvas : Canvas) (thickness : ℤ) (color : Color) (position : ℤ × ℤ) :
    canvas.stamp R thickness color position =
      canvas.paint R color (stampCells thickness canvas position) := by
  rw [stamp, foldl_paint color (fun canvas y => (canvas.columns (position.1 - penReach thickness)
    (position.1 + penReach thickness + 1)).map fun x => (x, y))]
  · rfl
  · intro canvas other sameWidth _
    simp only [columns, sameWidth]

theorem drawLine_eq_paint (canvas : Canvas) (line : PixelLine) (color : Color) (thickness : ℤ) :
    canvas.drawLine R line color thickness =
      canvas.paint R color (line.trace.flatMap (stampCells thickness canvas)) := by
  have stamping : stamp R thickness color =
      fun canvas position => canvas.paint R color (stampCells thickness canvas position) := by
    funext canvas position
    exact stamp_eq_paint canvas thickness color position
  rw [drawLine, PixelLine.fold_eq_foldl_trace, stamping, foldl_paint color _ stampCells_congr]

end Canvas

namespace PixelLine

open Canvas (numbers mem_numbers penReach penSquare penSide mem_penSquare)

/-- The pixels under the pen on its way. -/
def penMarks (line : PixelLine) (thickness : ℤ) : Finset (ℤ × ℤ) :=
  line.trace.toFinset.biUnion (penSquare thickness)

theorem mem_penMarks {line : PixelLine} {thickness : ℤ} {cell : ℤ × ℤ} :
    cell ∈ line.penMarks thickness ↔
      ∃ position ∈ line.trace, cell ∈ penSquare thickness position := by
  simp [penMarks]

/-! ## Lines along an axis -/

/-- A level line has the pixels between its ends. -/
theorem mem_trace_of_level {line : PixelLine} (level : line.y0 = line.y1) {cell : ℤ × ℤ} :
    cell ∈ line.trace ↔
      (min line.x0 line.x1 ≤ cell.1 ∧ cell.1 ≤ max line.x0 line.x1) ∧ cell.2 = line.y0 := by
  have noRows : line.along = 0 := by simp [along, level]
  have flat : line.along ≤ line.across := noRows.trans_le line.across_nonneg
  have steps := steps_of_flat flat
  have x1 := line.x1_eq
  have nonneg := line.across_nonneg
  have position (count : ℕ) (le : count ≤ line.steps) :
      line.position count = (line.x0 + count * line.stepX, line.y0) := by
    rcases exists_onCourse flat count with ⟨risen, course⟩
    have row := (line.abs_sub_position_le le).2
    rw [noRows, abs_nonpos_iff, sub_eq_zero, ← level] at row
    rw [PixelLine.position, course.x, ← row]
  rw [trace_eq, List.mem_map]
  constructor
  · rintro ⟨count, listed, rfl⟩
    have le : count ≤ line.steps := Nat.le_of_lt_succ (List.mem_range.mp listed)
    rw [position count le]
    rcases line.stepX_eq with right | left
    · rw [right] at x1 ⊢
      dsimp only
      omega
    · rw [left] at x1 ⊢
      dsimp only
      omega
  · rintro ⟨between, row⟩
    have near : (cell.1 - line.x0).natAbs ≤ line.steps := by
      unfold PixelLine.steps
      omega
    refine ⟨(cell.1 - line.x0).natAbs, List.mem_range.mpr (by omega), ?_⟩
    rw [position _ near]
    apply Prod.ext _ row.symm
    rcases line.stepX_eq with right | left
    · rw [right] at x1 ⊢
      dsimp only
      omega
    · rw [left] at x1 ⊢
      dsimp only
      omega

theorem trace_transposed (line : PixelLine) : line.transposed.trace = line.trace.map Prod.swap := by
  rw [trace_eq, trace_eq, steps_transposed, List.map_map]
  exact List.map_congr_left fun count _ => line.position_transposed count

/-- The marks of a level line fill a rectangle as high as the pen. -/
theorem penMarks_of_level {line : PixelLine} (level : line.y0 = line.y1) (thickness : ℤ) :
    line.penMarks thickness =
      numbers (min line.x0 line.x1 - penReach thickness)
          (max line.x0 line.x1 + penReach thickness) ×ˢ
        numbers (line.y0 - penReach thickness) (line.y0 + penReach thickness) := by
  have nonneg := Canvas.penReach_nonneg thickness
  ext cell
  simp only [mem_penMarks, mem_trace_of_level level, mem_penSquare, Finset.mem_product, mem_numbers]
  constructor
  · rintro ⟨position, ⟨between, row⟩, inColumns, inRows⟩
    omega
  · intro inside
    -- The nearest position between the ends is near enough.
    exact ⟨(max (min line.x0 line.x1) (min cell.1 (max line.x0 line.x1)), line.y0),
      ⟨by omega, rfl⟩, by omega, inside.2⟩

theorem mem_penMarks_transposed (line : PixelLine) (thickness : ℤ) (cell : ℤ × ℤ) :
    cell ∈ line.transposed.penMarks thickness ↔ cell.swap ∈ line.penMarks thickness := by
  simp only [mem_penMarks, trace_transposed, List.mem_map, mem_penSquare]
  constructor
  · rintro ⟨_, ⟨position, listed, rfl⟩, inColumns, inRows⟩
    exact ⟨position, listed, inRows, inColumns⟩
  · rintro ⟨position, listed, inColumns, inRows⟩
    exact ⟨position.swap, ⟨position, listed, rfl⟩, inRows, inColumns⟩

/-- The marks of an upright line fill a rectangle as wide as the pen. -/
theorem penMarks_of_upright {line : PixelLine} (upright : line.x0 = line.x1) (thickness : ℤ) :
    line.penMarks thickness =
      numbers (line.x0 - penReach thickness) (line.x0 + penReach thickness) ×ˢ
        numbers (min line.y0 line.y1 - penReach thickness)
          (max line.y0 line.y1 + penReach thickness) := by
  have level : line.transposed.y0 = line.transposed.y1 := upright
  ext cell
  have exchanged := line.mem_penMarks_transposed thickness cell.swap
  rw [penMarks_of_level level, Prod.swap_swap] at exchanged
  rw [← exchanged, Finset.mem_product, Finset.mem_product]
  exact and_comm

end PixelLine

namespace Canvas

/-! ## What is drawn -/

/-- A line drawn in a solid colour gives it to the pixels under the pen at some
position of the trace and leaves the others.  The pen is a square of as many
pixels as asked for if that number is odd, else of one less each way.  So a level
line on the canvas is that many rows high, and an upright one that many columns
wide.  All this is reckoned in signed numbers of 64 bits unless the line overflows,
which no line near zero does. -/
theorem drawLine_paints_odd_squares {canvas : Canvas} (full : canvas.Full) (line : PixelLine)
    {color : Color} (solid : color.a = 255) {thickness : ℤ} (thick : 1 ≤ thickness) :
    let painted := line.penMarks thickness ∩ canvas.area
    (∀ x < canvas.width, ∀ y < canvas.height,
        (canvas.drawLine Float32 line color thickness).pixel x y =
          if ((x : ℤ), (y : ℤ)) ∈ painted then color else canvas.pixel x y) ∧
      (∀ cell, cell ∈ painted ↔
        cell ∈ canvas.area ∧ ∃ position ∈ line.trace, cell ∈ penSquare thickness position) ∧
      (∀ position, ((penSquare thickness position).card : ℤ) =
        penSide thickness * penSide thickness) ∧
      (line.penMarks thickness ⊆ canvas.area → line.y0 = line.y1 →
        painted = numbers (min line.x0 line.x1 - penReach thickness)
            (max line.x0 line.x1 + penReach thickness) ×ˢ
          numbers (line.y0 - penReach thickness) (line.y0 + penReach thickness) ∧
        ((painted.image Prod.snd).card : ℤ) = penSide thickness) ∧
      (line.penMarks thickness ⊆ canvas.area → line.x0 = line.x1 →
        painted = numbers (line.x0 - penReach thickness) (line.x0 + penReach thickness) ×ˢ
          numbers (min line.y0 line.y1 - penReach thickness)
            (max line.y0 line.y1 + penReach thickness) ∧
        ((painted.image Prod.fst).card : ℤ) = penSide thickness) ∧
      (line.overflows (penReach thickness) = false ↔ line.InRange (penReach thickness)) ∧
      (line.Within (2 ^ 60) → thickness ≤ 2 ^ 60 → line.InRange (penReach thickness)) := by
  have nonneg := penReach_nonneg thickness
  intro painted
  have mem_painted (cell : ℤ × ℤ) : cell ∈ painted ↔
      cell ∈ canvas.area ∧ ∃ position ∈ line.trace, cell ∈ penSquare thickness position := by
    rw [Finset.mem_inter, PixelLine.mem_penMarks, and_comm]
  refine ⟨?_, mem_painted, card_penSquare thick, ?_, ?_, line.overflows_eq_false_iff _, ?_⟩
  · intro x inWidth y inHeight
    rw [drawLine_eq_paint, pixel_paint_of_solid Single.blends full inWidth inHeight solid]
    congr 1
    simp only [mem_painted, List.mem_flatMap, mem_stampCells, Finset.mem_inter, eq_iff_iff]
    constructor
    · rintro ⟨position, listed, under, onCanvas⟩
      exact ⟨onCanvas, position, listed, under⟩
    · rintro ⟨onCanvas, position, listed, under⟩
      exact ⟨position, listed, under, onCanvas⟩
  · intro inside level
    have marks : painted = line.penMarks thickness := Finset.inter_eq_left.mpr inside
    rw [marks, PixelLine.penMarks_of_level level, Finset.product_image_snd, card_penReach thick]
    · exact ⟨rfl, rfl⟩
    · apply numbers_nonempty
      omega
  · intro inside upright
    have marks : painted = line.penMarks thickness := Finset.inter_eq_left.mpr inside
    rw [marks, PixelLine.penMarks_of_upright upright, Finset.product_image_fst,
      card_penReach thick]
    · exact ⟨rfl, rfl⟩
    · apply numbers_nonempty
      omega
  · intro within thin
    refine PixelLine.inRange_of_within within nonneg ?_
    unfold penReach
    omega

/-- A line asked for with two pixels is one row high. -/
theorem drawLine_two_thick :
    let canvas : Canvas := blank 6 4 default
    let line : PixelLine := ⟨1, 1, 4, 1⟩
    let color : Color := ⟨0, 0, 0, 255⟩
    (canvas.Full ∧ color.a = 255 ∧ line.penMarks 2 ⊆ canvas.area) ∧
      (((line.penMarks 2 ∩ canvas.area).image Prod.snd).card : ℤ) = 1 ∧
      ∀ x < 6, ∀ y < 4, (canvas.drawLine Float32 line color 2).pixel x y =
        if (1 ≤ x ∧ x ≤ 4) ∧ y = 1 then color else canvas.pixel x y := by
  intro canvas line color
  have full : canvas.Full := full_blank 6 4 default
  have inside : line.penMarks 2 ⊆ canvas.area := by decide
  rcases drawLine_paints_odd_squares full line (show color.a = 255 from rfl)
    (show (1 : ℤ) ≤ 2 by decide) with ⟨pixels, -, -, level, -, -, -⟩
  rcases level inside rfl with ⟨painted, rows⟩
  refine ⟨⟨full, rfl, inside⟩, rows, ?_⟩
  intro x inWidth y inHeight
  rw [pixels x inWidth y inHeight, painted]
  congr 1
  simp only [Finset.mem_product, mem_numbers, line, penReach, eq_iff_iff]
  omega

end Canvas

end CodeAtlas
