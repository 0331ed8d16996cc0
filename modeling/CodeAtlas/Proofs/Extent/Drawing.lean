import CodeAtlas.Proofs.Geometry.Curve
import CodeAtlas.Proofs.Raster.Canvas
import CodeAtlas.Scene

/-!
# What a drawing covers

The points that the parts of a scene cover, and rectangles that they stay in.  A
part stays in every rectangle that has its corners.  Labels are plates, no wider
than their texts with the padding ask for, so they stay where there is room for
the text.
-/

namespace CodeAtlas

/-! ## Points -/

namespace DrawKind

/-- The points that a rectangle has to have so that all that is drawn stays in
it. -/
def corners {R : Type} : DrawKind R → List (Vec R)
  | .rect area => [area.min, area.max]
  | .polygon points => points
  | .polyline points _ => points
  | .label _ area => [area.min, area.max]

variable [Approximations]

/-- The points of what is drawn: areas with their borders, and lines without
their widths. -/
def Covers : DrawKind ℚ → Vec ℚ → Prop
  | .rect area, point => area.contains point = true
  | .polygon points, point => Polygon.contains points point = true ∨
      ∃ side ∈ Polygon.sides points, side.1.Between side.2 point
  | .polyline points _, point =>
    ∃ segment ∈ Polyline.segments points, segment.1.Between segment.2 point
  | .label _ area, point => area.contains point = true

/-- A rectangle that has the corners of what is drawn has all of its points. -/
theorem Covers.contains {kind : DrawKind ℚ} {rect : Rect ℚ} {point : Vec ℚ}
    (covers : kind.Covers point) (corners : ∀ corner ∈ kind.corners, rect.contains corner = true) :
    rect.contains point = true := by
  cases kind with
  | rect area =>
    have within : area.Within rect :=
      Rect.within_of_corners (corners _ (by simp [DrawKind.corners]))
        (corners _ (by simp [DrawKind.corners]))
    exact within.contains covers
  | polygon points =>
    rcases covers with inside | ⟨side, mem, between⟩
    · exact Polygon.contains_of_corners corners inside
    · rcases Polygon.mem_of_mem_sides mem with ⟨first, second⟩
      exact Rect.contains_of_between (corners _ first) (corners _ second) between
  | polyline points dashed =>
    rcases covers with ⟨segment, mem, between⟩
    rcases List.of_mem_zip mem with ⟨first, second⟩
    exact Rect.contains_of_between (corners _ first)
      (corners _ (List.mem_of_mem_tail second)) between
  | label resource area =>
    have within : area.Within rect :=
      Rect.within_of_corners (corners _ (by simp [DrawKind.corners]))
        (corners _ (by simp [DrawKind.corners]))
    exact within.contains covers

end DrawKind

variable [Approximations]

/-- The corners of a part lie in a rectangle. -/
def Primitive.StaysIn (primitive : Primitive ℚ) (rect : Rect ℚ) : Prop :=
  ∀ corner ∈ primitive.kind.corners, rect.contains corner = true

theorem Primitive.StaysIn.mono {primitive : Primitive ℚ} {inner outer : Rect ℚ}
    (stays : primitive.StaysIn inner) (within : inner.Within outer) : primitive.StaysIn outer :=
  fun corner mem => within.contains (stays corner mem)

/-! ## Plates -/

/-- A number of pixels is rounded down. -/
theorem Exact.toPixels_le {x : ℚ} (nonneg : 0 ≤ x) : (Scalar.toPixels x : ℚ) ≤ x := by
  have whole : Scalar.trunc x ≤ ⌊x⌋ := by
    change max (-(2 ^ 63)) (min (2 ^ 63 - 1) (if 0 ≤ x then ⌊x⌋ else ⌈x⌉)) ≤ ⌊x⌋
    rw [if_pos nonneg]
    have floorNonneg : 0 ≤ ⌊x⌋ := Int.floor_nonneg.mpr nonneg
    omega
  have count : Scalar.toPixels x ≤ (Scalar.trunc x).toNat := Nat.min_le_left _ _
  have counted : (Scalar.toPixels x : ℤ) ≤ ⌊x⌋ := by
    have floorNonneg : 0 ≤ ⌊x⌋ := Int.floor_nonneg.mpr nonneg
    omega
  calc (Scalar.toPixels x : ℚ) = ((Scalar.toPixels x : ℤ) : ℚ) := by simp
    _ ≤ ⌊x⌋ := by exact_mod_cast counted
    _ ≤ x := Int.floor_le x

namespace TextMetrics

variable {text : TextMetrics ℚ}

/-- Blending a glyph keeps the size of the canvas. -/
theorem size_blendGlyph (color : Color) (canvas : Canvas) (glyph : PlacedGlyph ℚ) :
    (blendGlyph color canvas glyph).width = canvas.width ∧
      (blendGlyph color canvas glyph).height = canvas.height := by
  refine Canvas.size_foldl (fun canvas row => Canvas.size_foldl ?_ _ canvas) _ canvas
  intro canvas column
  dsimp only
  split
  · exact ⟨rfl, rfl⟩
  · exact ⟨Canvas.width_blend .., Canvas.height_blend ..⟩

/-- Whatever the font, the picture of a text is as large as its plate. -/
theorem size_rasterize (text : TextMetrics ℚ) (shown : String) (style : LabelStyle ℚ) :
    ((text.rasterize shown style).size : Vec ℚ) =
      ⟨text.plateWidth shown style.paddingX, text.plateHeight⟩ := by
  have same : (text.rasterize shown style).width = text.plateWidth shown style.paddingX ∧
      (text.rasterize shown style).height = text.plateHeight := by
    unfold rasterize
    split
    · exact ⟨rfl, rfl⟩
    · exact Canvas.size_foldl (size_blendGlyph style.text) _ _
  simp [LabelBitmap.size, same]

/-- A plate is no wider than its text and the padding, rounded up. -/
theorem plateWidth_le (text : TextMetrics ℚ) (shown : String) (paddingX : ℚ) :
    (text.plateWidth shown paddingX : ℚ) ≤
      max (Scalar.ceil (text.measure shown + paddingX * 2)) 1 := by
  have least : 0 ≤ max (Scalar.ceil (text.measure shown + paddingX * 2)) 1 :=
    le_max_of_le_right zero_le_one
  unfold plateWidth
  rw [Exact.max_eq, Exact.two_eq, Exact.one_eq]
  exact Exact.toPixels_le least

/-- A plate fits wherever there is room for its text and a unit at least. -/
theorem plateWidth_le_of_room {width : ℚ} {shown : String} {paddingX : ℚ}
    (room : Scalar.ceil (text.measure shown + paddingX * 2) ≤ width) (least : 1 ≤ width) :
    (text.plateWidth shown paddingX : ℚ) ≤ width :=
  (plateWidth_le text shown paddingX).trans (max_le room least)

end TextMetrics

/-! ## Labels -/

namespace Scene

section Labels

variable {R : Type} [Scalar R]

/-- Where a label of a size stands in its place. -/
def labelArea (place : Rect R) (size : Vec R) (align : Align) : Rect R :=
  .ofPosSize
    ⟨match align with
      | .center => place.center.x - size.x * 0.5
      | .left => place.min.x, place.center.y - size.y * 0.5⟩ size

omit [Approximations] in
theorem mem_label_iff {pool : Pool R} {role : Role} {resource : Option ResourceId}
    {place : Rect R} {align : Align} {primitive : Primitive R} :
    primitive ∈ label pool role resource place align ↔
      ∃ id bitmap, resource = some id ∧ pool.label? id = some bitmap ∧
        primitive = ⟨role, .label id (labelArea place bitmap.size align), .invisible, none⟩ := by
  unfold label
  cases resource with
  | none => simp
  | some id =>
    cases found : pool.label? id with
    | none => simp [found]
    | some bitmap =>
      simp only [found, List.mem_singleton, Option.some.injEq]
      constructor
      · rintro rfl
        exact ⟨id, bitmap, rfl, found, rfl⟩
      · rintro ⟨_, _, rfl, sameFound, rfl⟩
        obtain rfl := Option.some.inj (found.symm.trans sameFound)
        rfl

end Labels

/-- A label stays in its place, but for what it is larger. -/
theorem labelArea_within {place : Rect ℚ} {size : Vec ℚ} {slack : ℚ} (nonneg : 0 ≤ slack)
    (wide : size.x ≤ place.width + slack) (high : size.y ≤ place.height + slack) (align : Align) :
    (labelArea place size align).Within (place.expand slack) := by
  simp only [Rect.width, Rect.height] at wide high
  have top : (labelArea place size align).min.y = place.min.y +
      (place.max.y - place.min.y - size.y) / 2 := by
    simp only [labelArea, Rect.ofPosSize, Rect.center, Rect.height, Exact.half_eq]
    ring
  have bottom : (labelArea place size align).max.y =
      (labelArea place size align).min.y + size.y := rfl
  have right : (labelArea place size align).max.x =
      (labelArea place size align).min.x + size.x := rfl
  have left : place.min.x - slack ≤ (labelArea place size align).min.x ∧
      (labelArea place size align).min.x + size.x ≤ place.max.x + slack := by
    cases align with
    | center =>
      have middle : (labelArea place size .center).min.x = place.min.x +
          (place.max.x - place.min.x - size.x) / 2 := by
        simp only [labelArea, Rect.ofPosSize, Rect.center, Rect.width, Exact.half_eq]
        ring
      constructor <;> linarith
    | left =>
      have start : (labelArea place size .left).min.x = place.min.x := rfl
      constructor <;> linarith
  refine ⟨left.1, right.trans_le left.2, ?_, ?_⟩
  · change place.min.y - slack ≤ _
    linarith
  · change _ ≤ place.max.y + slack
    linarith

/-- A part that is a rectangle stays in every larger one. -/
theorem staysIn_of_within {primitive : Primitive ℚ} {area rect : Rect ℚ}
    (corners : primitive.kind.corners = [area.min, area.max]) (proper : area.Proper)
    (within : area.Within rect) : primitive.StaysIn rect := by
  intro corner mem
  rw [corners] at mem
  rcases List.mem_pair.mp mem with rfl | rfl
  · exact within.contains proper.contains_min
  · exact within.contains proper.contains_max

theorem staysIn_label {pool : Pool ℚ} {resource : Option ResourceId} {place : Rect ℚ} {slack : ℚ}
    (nonneg : 0 ≤ slack)
    (fits : ∀ id ∈ resource, ∀ bitmap, pool.label? id = some bitmap →
      (bitmap.size : Vec ℚ).x ≤ place.width + slack ∧
        (bitmap.size : Vec ℚ).y ≤ place.height + slack)
    (role : Role) (align : Align) :
    ∀ primitive ∈ label pool role resource place align,
      primitive.StaysIn (place.expand slack) := by
  intro primitive mem
  rcases mem_label_iff.mp mem with ⟨id, bitmap, rfl, found, rfl⟩
  rcases fits id rfl bitmap found with ⟨wide, high⟩
  refine staysIn_of_within rfl ?_ (labelArea_within nonneg wide high align)
  exact Rect.proper_ofPosSize _ (by simp [LabelBitmap.size]) (by simp [LabelBitmap.size])

end Scene

end CodeAtlas
