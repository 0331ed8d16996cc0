import CodeAtlas.Number.Single
import CodeAtlas.Raster.Canvas
import Mathlib.Data.List.Sort
import Mathlib.Logic.Function.Iterate
import Mathlib.Tactic.Linarith

/-!
# What painting does to a canvas

Painting a list of positions lays the colour over every pixel as often as the
list has its position, and does nothing else.  Painting in several goes is
painting once, with the lists joined.

A solid colour hides what it is laid over.  In single precision that is a matter
of its rounded operations, tried for all bytes.
-/

namespace CodeAtlas

/-! ## Solid colours -/

/-- What hiding needs of the arithmetic: a full channel counts as one, nothing
counts as nothing, and a channel comes out as it went in. -/
structure Scalar.Blends (R : Type) [Scalar R] : Prop where
  full : (Color.channel 255 : R) / 255.0 * (Color.channel 255 / 255.0) = 1.0
  notTiny : ¬ (1.0 : R) + 0.0 ≤ Scalar.epsilon
  opaqueByte : Scalar.toByte (Scalar.round (((1.0 : R) + 0.0) * 255.0)) = 255
  channels : ∀ byte < 256,
    let value : R := Color.channel (UInt8.ofNat byte)
    value / 255.0 * (1.0 - 1.0) = 0.0 ∧ value * 0.0 = 0.0 ∧
      Scalar.toByte (Scalar.round ((value * 1.0 + 0.0) / (1.0 + 0.0))) = UInt8.ofNat byte

theorem Single.blends : Scalar.Blends Float32 where
  full := by decide +kernel
  notTiny := by decide +kernel
  opaqueByte := by decide +kernel
  channels := by decide +kernel

theorem Color.laidOver_of_solid {R : Type} [Scalar R] (blends : Scalar.Blends R) {color : Color}
    (solid : color.a = 255) (below : Color) : below.laidOver R color 255 = color := by
  rcases color with ⟨r, g, b, a⟩
  obtain rfl : a = 255 := solid
  have channels (byte : UInt8) := blends.channels byte.toNat byte.toNat_lt
  simp only [UInt8.ofNat_toNat] at channels
  have mixed (source target : UInt8) :
      Scalar.toByte (Scalar.round ((channel source * 1.0 + channel target * 0.0) / (1.0 + 0.0) : R))
        = source := by
    rw [(channels target).2.1, (channels source).2.2]
  simp only [laidOver, blends.full, (channels below.a).1, if_neg blends.notTiny, mixed,
    blends.opaqueByte]

namespace Canvas

variable {R : Type} [Scalar R] {canvas : Canvas}

/-- Every position of the canvas has a pixel of its own. -/
def Full (canvas : Canvas) : Prop :=
  canvas.pixels.size = canvas.width * canvas.height

theorem full_blank (width height : ℕ) (color : Color) : (blank width height color).Full := by
  simp [Full, blank]

theorem holds_iff {x y : ℤ} :
    canvas.holds x y = true ↔ 0 ≤ x ∧ 0 ≤ y ∧ x < canvas.width ∧ y < canvas.height := by
  simp [holds, and_assoc]

/-! ## One pixel -/

@[simp]
theorem width_blend (canvas : Canvas) (x y : ℤ) (color : Color) (coverage : UInt8) :
    (canvas.blend R x y color coverage).width = canvas.width := by
  unfold blend
  split <;> rfl

@[simp]
theorem height_blend (canvas : Canvas) (x y : ℤ) (color : Color) (coverage : UInt8) :
    (canvas.blend R x y color coverage).height = canvas.height := by
  unfold blend
  split <;> rfl

theorem Full.blend (full : canvas.Full) (x y : ℤ) (color : Color)
    (coverage : UInt8) : (canvas.blend R x y color coverage).Full := by
  unfold Canvas.blend
  split
  · simpa [Full] using full
  · exact full

/-- Row by row, no two pixels have the same number. -/
theorem index_inj {width x y x' y' : ℕ} (inside : x < width) (inside' : x' < width) :
    y * width + x = y' * width + x' ↔ x = x' ∧ y = y' := by
  constructor
  · intro same
    have columns : x = x' := by
      calc
        x = (y * width + x) % width := by
          rw [Nat.mul_add_mod_self_right, Nat.mod_eq_of_lt inside]
        _ = (y' * width + x') % width := by rw [same]
        _ = x' := by rw [Nat.mul_add_mod_self_right, Nat.mod_eq_of_lt inside']
    subst columns
    exact ⟨rfl, Nat.eq_of_mul_eq_mul_right (by omega) (Nat.add_right_cancel same)⟩
  · rintro ⟨rfl, rfl⟩
    rfl

/-- Laying a colour over a position changes the pixel there and no other. -/
theorem pixel_blend (full : canvas.Full) {x y : ℕ} (inWidth : x < canvas.width)
    (inHeight : y < canvas.height) (column row : ℤ) (color : Color) (coverage : UInt8) :
    (canvas.blend R column row color coverage).pixel x y =
      if (column, row) = ((x : ℤ), (y : ℤ)) then (canvas.pixel x y).laidOver R color coverage
      else canvas.pixel x y := by
  have listed : y * canvas.width + x < canvas.pixels.size := by
    rw [full]
    have below : (y + 1) * canvas.width ≤ canvas.height * canvas.width :=
      Nat.mul_le_mul_right _ inHeight
    linarith [Nat.mul_comm canvas.height canvas.width]
  by_cases onCanvas : canvas.holds column row = true
  · rcases holds_iff.mp onCanvas with ⟨left, top, right, bottom⟩
    lift column to ℕ using left
    lift row to ℕ using top
    rw [blend, if_pos onCanvas]
    simp only [pixel, Array.getD_eq_getD_getElem?, Array.getElem?_modify, Int.toNat_natCast,
      index_inj (show column < canvas.width by omega) inWidth, Prod.mk.injEq, Nat.cast_inj]
    split <;> simp [listed]
  · have elsewhere : (column, row) ≠ ((x : ℤ), (y : ℤ)) := by
      rintro same
      rw [Prod.mk.injEq] at same
      apply onCanvas
      rw [holds_iff, same.1, same.2]
      omega
    rw [blend, if_neg onCanvas, if_neg elsewhere]

/-! ## Many pixels -/

@[simp]
theorem paint_nil (canvas : Canvas) (color : Color) : canvas.paint R color [] = canvas :=
  rfl

theorem paint_cons (canvas : Canvas) (color : Color) (cell : ℤ × ℤ) (cells : List (ℤ × ℤ)) :
    canvas.paint R color (cell :: cells) =
      (canvas.blend R cell.1 cell.2 color 255).paint R color cells :=
  rfl

theorem paint_append (canvas : Canvas) (color : Color) (cells more : List (ℤ × ℤ)) :
    canvas.paint R color (cells ++ more) = (canvas.paint R color cells).paint R color more :=
  List.foldl_append

omit [Scalar R] in
/-- Steps that keep the size of a canvas keep it together. -/
theorem size_foldl {α : Type} {step : Canvas → α → Canvas}
    (keeps : ∀ canvas item, (step canvas item).width = canvas.width ∧
      (step canvas item).height = canvas.height) (items : List α) (canvas : Canvas) :
    (items.foldl step canvas).width = canvas.width ∧
      (items.foldl step canvas).height = canvas.height := by
  induction items generalizing canvas with
  | nil => exact ⟨rfl, rfl⟩
  | cons item items ih =>
    exact ⟨(ih _).1.trans (keeps canvas item).1, (ih _).2.trans (keeps canvas item).2⟩

theorem size_paint (canvas : Canvas) (color : Color) (cells : List (ℤ × ℤ)) :
    (canvas.paint R color cells).width = canvas.width ∧
      (canvas.paint R color cells).height = canvas.height :=
  size_foldl (fun _ _ => ⟨width_blend .., height_blend ..⟩) cells canvas

/-- Painting lays the colour over a pixel as often as its position is listed. -/
theorem pixel_paint (full : canvas.Full) {x y : ℕ} (inWidth : x < canvas.width)
    (inHeight : y < canvas.height) (color : Color) (cells : List (ℤ × ℤ)) :
    (canvas.paint R color cells).pixel x y =
      (fun below => below.laidOver R color 255)^[cells.count ((x : ℤ), (y : ℤ))]
        (canvas.pixel x y) := by
  induction cells generalizing canvas with
  | nil => rfl
  | cons cell cells ih =>
    rw [paint_cons, ih (full.blend _ _ _ _) (by simpa using inWidth)
      (by simpa using inHeight), pixel_blend full inWidth inHeight, List.count_cons]
    by_cases here : cell = ((x : ℤ), (y : ℤ))
    · simp [here]
    · simp [here]

/-- Painting with a solid colour gives it to the pixels listed and leaves the
others. -/
theorem pixel_paint_of_solid (blends : Scalar.Blends R) (full : canvas.Full) {x y : ℕ}
    (inWidth : x < canvas.width) (inHeight : y < canvas.height) {color : Color}
    (solid : color.a = 255) (cells : List (ℤ × ℤ)) :
    (canvas.paint R color cells).pixel x y =
      if ((x : ℤ), (y : ℤ)) ∈ cells then color else canvas.pixel x y := by
  rw [pixel_paint full inWidth inHeight]
  split
  · next listed =>
      rcases Nat.exists_eq_succ_of_ne_zero (List.count_pos_iff.mpr listed).ne' with ⟨more, count⟩
      rw [count, Function.iterate_succ_apply', Color.laidOver_of_solid blends solid]
  · next missing => rw [List.count_eq_zero.mpr missing, Function.iterate_zero, id_eq]

/-- Painting once for each of some items is painting once for all of them, if what
is painted for an item depends on the size of the canvas only. -/
theorem foldl_paint {α : Type} (color : Color) (cells : Canvas → α → List (ℤ × ℤ))
    (bySize : ∀ {canvas other : Canvas}, canvas.width = other.width →
      canvas.height = other.height → cells canvas = cells other)
    (items : List α) (canvas : Canvas) :
    items.foldl (fun canvas item => canvas.paint R color (cells canvas item)) canvas =
      canvas.paint R color (items.flatMap (cells canvas)) := by
  induction items generalizing canvas with
  | nil => rfl
  | cons item items ih =>
    rw [List.foldl_cons, ih, List.flatMap_cons, paint_append,
      bySize (size_paint canvas color _).1 (size_paint canvas color _).2]

/-! ## Columns and rows -/

theorem mem_span {low high number : ℤ} : number ∈ span low high ↔ low ≤ number ∧ number < high := by
  simp only [span, List.mem_map, List.mem_range]
  constructor
  · rintro ⟨step, less, rfl⟩
    omega
  · rintro ⟨atLeast, below⟩
    exact ⟨(number - low).toNat, by omega, by omega⟩

theorem pairwise_lt_span (low high : ℤ) : (span low high).Pairwise (· < ·) := by
  rw [span, List.pairwise_map]
  apply List.pairwise_lt_range.imp
  intro step later less
  omega

/-- Of two spans those numbers are the same, in the same order, that a test picks
from neither or from both. -/
theorem filter_span_congr {low high low' high' : ℤ} {test : ℤ → Bool}
    (picked : ∀ number, test number = true → (number ∈ span low high ↔ number ∈ span low' high')) :
    (span low high).filter test = (span low' high').filter test := by
  apply List.Pairwise.eq_of_mem_iff ((pairwise_lt_span low high).filter _)
    ((pairwise_lt_span low' high').filter _)
  intro number
  rw [List.mem_filter, List.mem_filter]
  exact and_congr_left (picked number)

/-- Two spans give the same list, number by number, if they differ only in numbers
that contribute nothing. -/
theorem flatMap_span_congr {α : Type} {low high low' high' : ℤ} {items : ℤ → List α}
    (contributing : ∀ number, items number ≠ [] →
      (number ∈ span low high ↔ number ∈ span low' high')) :
    (span low high).flatMap items = (span low' high').flatMap items := by
  have skipping (numbers : List ℤ) :
      (numbers.filter fun number => !(items number).isEmpty).flatMap items =
        numbers.flatMap items := by
    induction numbers with
    | nil => rfl
    | cons number numbers ih =>
      cases here : items number <;> simp [here, ih]
  rw [← skipping, ← skipping (span low' high')]
  congr 1
  apply filter_span_congr
  intro number nonempty
  exact contributing number (by simpa using nonempty)

/-- All positions of the canvas, row by row. -/
def positions (canvas : Canvas) : List (ℤ × ℤ) :=
  (span 0 canvas.height).flatMap fun y => (span 0 canvas.width).map fun x => (x, y)

theorem mem_positions {x y : ℕ} (inWidth : x < canvas.width)
    (inHeight : y < canvas.height) : ((x : ℤ), (y : ℤ)) ∈ canvas.positions := by
  simp only [positions, List.mem_flatMap, List.mem_map]
  exact ⟨y, mem_span.mpr (by omega), x, mem_span.mpr (by omega), rfl⟩

theorem nodup_positions (canvas : Canvas) : canvas.positions.Nodup := by
  have nodup (high : ℤ) : (span 0 high).Nodup := (pairwise_lt_span 0 high).imp ne_of_lt
  rw [positions, List.nodup_flatMap]
  constructor
  · intro y _
    exact (nodup _).map fun x x' same => congrArg Prod.fst same
  · apply (nodup _).imp
    intro y y' differ cell mem mem'
    rcases List.mem_map.mp mem with ⟨x, _, rfl⟩
    rcases List.mem_map.mp mem' with ⟨x', _, same⟩
    exact differ (congrArg Prod.snd same).symm

theorem mem_columns {low high x : ℤ} :
    x ∈ canvas.columns low high ↔ (low ≤ x ∧ x < high) ∧ 0 ≤ x ∧ x < canvas.width := by
  rw [columns, mem_span]
  omega

theorem mem_rows {low high y : ℤ} :
    y ∈ canvas.rows low high ↔ (low ≤ y ∧ y < high) ∧ 0 ≤ y ∧ y < canvas.height := by
  rw [rows, mem_span]
  omega

end Canvas

end CodeAtlas
