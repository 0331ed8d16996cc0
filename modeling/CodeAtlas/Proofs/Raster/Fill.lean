import CodeAtlas.Proofs.Geometry.Polygon
import CodeAtlas.Proofs.Raster.Canvas
import CodeAtlas.Raster.Shape

/-!
# Filled polygons without rounding

Only the rows and columns of the rectangle around a polygon are tested when it is
filled.  No pixel is lost by that: where the centre of a pixel lies in the
polygon it lies in the rectangle, and rounding the sides of the rectangle outwards
keeps the pixel among those tested.
-/

namespace CodeAtlas

namespace Canvas

variable [Approximations]

/-- The centre of a pixel. -/
def centre (cell : ℤ × ℤ) : Vec ℚ :=
  ⟨cell.1 + 1 / 2, cell.2 + 1 / 2⟩

/-! ## Rounding outwards -/

theorem trunc_intCast (whole : ℤ) :
    Scalar.trunc (whole : ℚ) = max (-(2 ^ 63)) (min (2 ^ 63 - 1) whole) := by
  change max (-(2 ^ 63)) (min (2 ^ 63 - 1)
    (if 0 ≤ (whole : ℚ) then ⌊(whole : ℚ)⌋ else ⌈(whole : ℚ)⌉)) = _
  rw [Int.floor_intCast, Int.ceil_intCast, ite_self]

theorem round_natCast (whole : ℕ) : Scalar.round (whole : ℚ) = whole := by
  change (if 0 ≤ (whole : ℚ) then (⌊(whole : ℚ) + 1 / 2⌋ : ℚ) else ⌈(whole : ℚ) - 1 / 2⌉) = whole
  rw [if_pos (Nat.cast_nonneg whole), Int.floor_natCast_add, show ⌊(1 / 2 : ℚ)⌋ = 0 by norm_num,
    add_zero, Int.cast_natCast]

theorem toByte_natCast {whole : ℕ} (small : whole < 256) :
    Scalar.toByte (whole : ℚ) = UInt8.ofNat whole := by
  have exactly : Scalar.trunc (whole : ℚ) = whole := by
    rw [← Int.cast_natCast, trunc_intCast]
    omega
  have fits : Nat.min whole 255 = whole := Nat.min_eq_left (by omega)
  rw [Scalar.toByte, Scalar.toCount, exactly, Int.toNat_natCast, fits]

/-- Without rounding, too, a solid colour hides what it is laid over. -/
theorem exact_blends : Scalar.Blends ℚ where
  full := by
    have value : (Color.channel 255 : ℚ) = 255 := by simp [Color.channel]
    norm_num [value]
  notTiny := by norm_num [Scalar.epsilon]
  opaqueByte := by
    have whole : ((1.0 : ℚ) + 0.0) * 255.0 = (255 : ℕ) := by norm_num
    rw [whole, round_natCast, toByte_natCast (by decide)]
    rfl
  channels byte small := by
    have value : (Color.channel (UInt8.ofNat byte) : ℚ) = byte := by
      simp [Color.channel, Nat.mod_eq_of_lt small]
    have same : ((byte : ℚ) * 1.0 + 0.0) / (1.0 + 0.0) = byte := by norm_num
    dsimp only
    rw [value, same, round_natCast, toByte_natCast small]
    norm_num

/-- The pixel is not cut off on the side where numbers begin. -/
theorem trunc_floor_le {low : ℚ} {number : ℤ} (nonneg : 0 ≤ number)
    (after : low ≤ number + 1 / 2) : Scalar.trunc (Scalar.floor low) ≤ number := by
  have whole : ⌊low⌋ ≤ number := by
    have floored : ⌊low⌋ ≤ ⌊(number : ℚ) + 1 / 2⌋ := Int.floor_mono after
    rwa [Int.floor_intCast_add, show ⌊(1 / 2 : ℚ)⌋ = 0 by norm_num, add_zero] at floored
  change Scalar.trunc (⌊low⌋ : ℚ) ≤ number
  rw [trunc_intCast]
  omega

/-- Nor is it on the side where they end. -/
theorem lt_trunc_ceil {high : ℚ} {number : ℤ} {size : ℕ} (small : size < 2 ^ 63)
    (inside : number < size) (before : number + 1 / 2 ≤ high) :
    number < Scalar.trunc (Scalar.ceil high) := by
  have whole : number < ⌈high⌉ := by
    apply Int.lt_ceil.mpr
    linarith
  change number < Scalar.trunc (⌈high⌉ : ℚ)
  rw [trunc_intCast]
  omega

/-! ## Rows -/

theorem mem_columns_of_contains {canvas : Canvas} {points : List (Vec ℚ)} {bounds : Rect ℚ}
    (narrow : canvas.width < 2 ^ 63) (low : canvas.height < 2 ^ 63)
    (bounded : Rect.bounding points = some bounds) {cell : ℤ × ℤ}
    (inside : Polygon.contains points (centre cell) = true) :
    (cell.1 ∈ canvas.columns (Scalar.trunc (Scalar.floor bounds.min.x))
        (Scalar.trunc (Scalar.ceil bounds.max.x)) ↔ cell.1 ∈ span 0 canvas.width) ∧
      (cell.2 ∈ canvas.rows (Scalar.trunc (Scalar.floor bounds.min.y))
        (Scalar.trunc (Scalar.ceil bounds.max.y)) ↔ cell.2 ∈ span 0 canvas.height) := by
  have around := Polygon.contains_of_corners (Rect.contains_of_bounding bounded) inside
  rcases Rect.contains_iff.mp around with ⟨left, right, top, bottom⟩
  simp only [mem_columns, mem_rows, mem_span, and_iff_right_iff_imp]
  constructor
  · rintro ⟨nonneg, less⟩
    exact ⟨trunc_floor_le nonneg left, lt_trunc_ceil narrow less right⟩
  · rintro ⟨nonneg, less⟩
    exact ⟨trunc_floor_le nonneg top, lt_trunc_ceil low less bottom⟩

theorem polygonRow_eq (points : List (Vec ℚ)) (columns : List ℤ) (y : ℤ) :
    polygonRow points columns y =
      columns.filter fun x => Polygon.contains points (centre (x, y)) := by
  unfold polygonRow Polygon.contains centre
  simp only [Exact.half_eq]
  rfl

/-- The columns tested in a row are enough for it. -/
theorem polygonRow_columns {canvas : Canvas} {points : List (Vec ℚ)} {bounds : Rect ℚ}
    (narrow : canvas.width < 2 ^ 63) (low : canvas.height < 2 ^ 63)
    (bounded : Rect.bounding points = some bounds) (y : ℤ) :
    polygonRow points (canvas.columns (Scalar.trunc (Scalar.floor bounds.min.x))
        (Scalar.trunc (Scalar.ceil bounds.max.x))) y =
      (span 0 canvas.width).filter fun x => Polygon.contains points (centre (x, y)) := by
  rw [polygonRow_eq]
  apply filter_span_congr
  intro x inside
  exact (mem_columns_of_contains narrow low bounded inside).1

theorem filter_positions (canvas : Canvas) (points : List (Vec ℚ)) :
    (canvas.positions.filter fun cell => Polygon.contains points (centre cell)) =
      (span 0 canvas.height).flatMap fun y =>
        ((span 0 canvas.width).filter fun x => Polygon.contains points (centre (x, y))).map
          fun x => (x, y) := by
  simp only [positions, List.filter_flatMap, List.filter_map, Function.comp_def]

/-- Testing every pixel paints no other pixels, and none in another order. -/
theorem fillPolygon_eq_paint {canvas : Canvas} (narrow : canvas.width < 2 ^ 63)
    (low : canvas.height < 2 ^ 63) (points : List (Vec ℚ)) (color : Color) :
    canvas.fillPolygon points color =
      canvas.paint ℚ color
        (canvas.positions.filter fun cell => Polygon.contains points (centre cell)) := by
  cases bounded : Rect.bounding points with
  | none =>
    have noPoints : points = [] := by
      cases points with
      | nil => rfl
      | cons => cases bounded
    subst noPoints
    have nothing : (fun cell => Polygon.contains [] (centre cell)) = fun _ => false := rfl
    rw [fillPolygon, bounded, nothing, List.filter_false]
    rfl
  | some bounds =>
    rw [fillPolygon, bounded]
    simp only [paintRow, polygonRow_columns narrow low bounded]
    rw [foldl_paint color (fun _ y =>
        ((span 0 canvas.width).filter fun x => Polygon.contains points (centre (x, y))).map
          fun x => (x, y)) (fun _ _ => rfl), filter_positions]
    congr 1
    apply flatMap_span_congr
    intro y nonempty
    rcases List.exists_mem_of_ne_nil _ nonempty with ⟨cell, mem⟩
    rcases List.mem_map.mp mem with ⟨x, listed, -⟩
    have inside := (List.mem_filter.mp listed).2
    exact (mem_columns_of_contains narrow low bounded inside).2

/-- A polygon is filled where it has the centre of a pixel, and nowhere else. -/
theorem pixel_fillPolygon {canvas : Canvas} (full : canvas.Full) (narrow : canvas.width < 2 ^ 63)
    (low : canvas.height < 2 ^ 63) (points : List (Vec ℚ)) (color : Color) {x y : ℕ}
    (inWidth : x < canvas.width) (inHeight : y < canvas.height) :
    (canvas.fillPolygon points color).pixel x y =
      if Polygon.contains points (centre (x, y)) = true then
        (canvas.pixel x y).laidOver ℚ color 255
      else canvas.pixel x y := by
  rw [fillPolygon_eq_paint narrow low, pixel_paint full inWidth inHeight]
  split
  · next inside =>
      have once : (canvas.positions.filter fun cell => Polygon.contains points (centre cell)).count
          ((x : ℤ), (y : ℤ)) = 1 :=
        List.count_eq_one_of_mem (canvas.nodup_positions.filter _)
          (List.mem_filter.mpr ⟨mem_positions inWidth inHeight, inside⟩)
      rw [once, Function.iterate_one]
  · next outside =>
      have never : (canvas.positions.filter fun cell => Polygon.contains points (centre cell)).count
          ((x : ℤ), (y : ℤ)) = 0 :=
        List.count_eq_zero.mpr fun mem => outside (List.mem_filter.mp mem).2
      rw [never, Function.iterate_zero, id_eq]

/-- What lies in a polygon lies in the rectangle around it, so filling the pixels
of that rectangle whose centres the polygon has fills all pixels whose centres it
has, once each: in a solid colour they have that colour afterwards, and all others
are as they were.  The sides of a canvas are counted in 32 bits, far below
`2 ^ 63`. -/
theorem fillPolygon_tests_enough {canvas : Canvas} (narrow : canvas.width < 2 ^ 63)
    (low : canvas.height < 2 ^ 63) (points : List (Vec ℚ)) (color : Color) :
    (∀ point, Polygon.contains points point = true →
        ∃ bounds, Rect.bounding points = some bounds ∧ bounds.contains point = true) ∧
      canvas.fillPolygon points color =
        canvas.paint ℚ color
          (canvas.positions.filter fun cell => Polygon.contains points (centre cell)) ∧
      (canvas.Full → ∀ x < canvas.width, ∀ y < canvas.height,
        (canvas.fillPolygon points color).pixel x y =
          if Polygon.contains points (centre (x, y)) = true then
            (canvas.pixel x y).laidOver ℚ color 255
          else canvas.pixel x y) ∧
      (canvas.Full → color.a = 255 → ∀ x < canvas.width, ∀ y < canvas.height,
        (canvas.fillPolygon points color).pixel x y =
          if Polygon.contains points (centre (x, y)) = true then color else canvas.pixel x y) := by
  refine ⟨?_, fillPolygon_eq_paint narrow low points color, ?_, ?_⟩
  · intro point inside
    cases bounded : Rect.bounding points with
    | none =>
      cases points with
      | nil => cases inside
      | cons => cases bounded
    | some bounds =>
      exact ⟨bounds, rfl, Polygon.contains_of_corners (Rect.contains_of_bounding bounded) inside⟩
  · intro full x inWidth y inHeight
    exact pixel_fillPolygon full narrow low points color inWidth inHeight
  · intro full solid x inWidth y inHeight
    rw [pixel_fillPolygon full narrow low points color inWidth inHeight,
      Color.laidOver_of_solid exact_blends solid]

omit [Approximations] in
/-- A triangle whose tip lies on the centre of a pixel and whose base lies below
the canvas. -/
theorem fillPolygon_triangle :
    letI : Approximations := .sample
    let canvas : Canvas := blank 5 3 default
    let triangle : List (Vec ℚ) := [⟨5 / 2, 1 / 2⟩, ⟨5, 7⟩, ⟨0, 7⟩]
    (canvas.width < 2 ^ 63 ∧ canvas.height < 2 ^ 63) ∧
      ∀ color, canvas.fillPolygon triangle color = canvas.paint ℚ color [(2, 1), (2, 2)] ∧
        (color.a = 255 → ∀ x < 5, ∀ y < 3, (canvas.fillPolygon triangle color).pixel x y =
          if x = 2 ∧ 1 ≤ y then color else canvas.pixel x y) := by
  let _ : Approximations := .sample
  intro canvas triangle
  have small : canvas.width < 2 ^ 63 ∧ canvas.height < 2 ^ 63 := by decide
  refine ⟨small, fun color => ?_⟩
  have cells : (canvas.positions.filter fun cell => Polygon.contains triangle (centre cell)) =
      [(2, 1), (2, 2)] := by
    decide +kernel
  have inside : ∀ x < 5, ∀ y < 3,
      (Polygon.contains triangle (centre ((x : ℕ), (y : ℕ))) = true ↔ x = 2 ∧ 1 ≤ y) := by
    decide +kernel
  rcases fillPolygon_tests_enough small.1 small.2 triangle color with ⟨-, painted, -, solid⟩
  refine ⟨by rw [painted, cells], ?_⟩
  intro isSolid x inWidth y inHeight
  rw [solid (full_blank 5 3 default) isSolid x inWidth y inHeight]
  simp only [inside x inWidth y inHeight]

end Canvas

end CodeAtlas
