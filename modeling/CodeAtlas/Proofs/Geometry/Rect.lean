import CodeAtlas.Geometry.Rect
import CodeAtlas.Proofs.Exact

/-!
# Rectangles without rounding

Inner points of rectangles, rectangles that stand apart, and rectangles that lie
in others.  Points on a border belong to the rectangle but are no inner points.
The least rectangle around others has all of them in it.
-/

namespace CodeAtlas

namespace Rect

/-- The point lies in the rectangle, but not on its border. -/
def Inside (rect : Rect ℚ) (point : Vec ℚ) : Prop :=
  rect.min.x < point.x ∧ point.x < rect.max.x ∧ rect.min.y < point.y ∧ point.y < rect.max.y

/-- One rectangle ends before the other starts. -/
def Apart (first second : Rect ℚ) : Prop :=
  first.max.x ≤ second.min.x ∨ second.max.x ≤ first.min.x ∨
    first.max.y ≤ second.min.y ∨ second.max.y ≤ first.min.y

/-- One rectangle lies in the other. -/
structure Within (inner outer : Rect ℚ) : Prop where
  left : outer.min.x ≤ inner.min.x
  right : inner.max.x ≤ outer.max.x
  top : outer.min.y ≤ inner.min.y
  bottom : inner.max.y ≤ outer.max.y

theorem Within.refl (rect : Rect ℚ) : rect.Within rect :=
  ⟨le_refl _, le_refl _, le_refl _, le_refl _⟩

theorem Within.trans {inner middle outer : Rect ℚ} (first : inner.Within middle)
    (second : middle.Within outer) : inner.Within outer :=
  ⟨second.left.trans first.left, first.right.trans second.right, second.top.trans first.top,
    first.bottom.trans second.bottom⟩

/-- The corners are in order. -/
structure Proper (rect : Rect ℚ) : Prop where
  wide : rect.min.x ≤ rect.max.x
  high : rect.min.y ≤ rect.max.y

/-- A rectangle around a proper one is proper. -/
theorem Proper.of_within {inner outer : Rect ℚ} (proper : inner.Proper)
    (within : inner.Within outer) : outer.Proper where
  wide := within.left.trans (proper.wide.trans within.right)
  high := within.top.trans (proper.high.trans within.bottom)

theorem Within.inside {inner outer : Rect ℚ} (within : inner.Within outer) {point : Vec ℚ}
    (inside : inner.Inside point) : outer.Inside point := by
  rcases inside with ⟨left, right, top, bottom⟩
  exact ⟨within.left.trans_lt left, right.trans_le within.right, within.top.trans_lt top,
    bottom.trans_le within.bottom⟩

variable [Approximations] {point : Vec ℚ} {inner outer : Rect ℚ}

theorem contains_iff {rect : Rect ℚ} :
    rect.contains point = true ↔ rect.min.x ≤ point.x ∧ point.x ≤ rect.max.x ∧
      rect.min.y ≤ point.y ∧ point.y ≤ rect.max.y := by
  simp [contains, and_assoc]

theorem Within.contains (within : inner.Within outer)
    (contains : inner.contains point = true) : outer.contains point = true := by
  rcases contains_iff.mp contains with ⟨left, right, top, bottom⟩
  exact contains_iff.mpr ⟨within.left.trans left, right.trans within.right, within.top.trans top,
    bottom.trans within.bottom⟩

theorem Inside.contains {rect : Rect ℚ} (inside : rect.Inside point) :
    rect.contains point = true := by
  rcases inside with ⟨left, right, top, bottom⟩
  exact contains_iff.mpr ⟨left.le, right.le, top.le, bottom.le⟩

/-- A rectangle has none of the inner points of another that stands apart. -/
theorem Inside.not_contains {first second : Rect ℚ} (inside : first.Inside point)
    (apart : first.Apart second) : ¬ second.contains point = true := by
  rw [contains_iff]
  rintro ⟨left, right, top, bottom⟩
  rcases inside with ⟨insideLeft, insideRight, insideTop, insideBottom⟩
  rcases apart with ends | ends | ends | ends <;> linarith

theorem center_ofPosSize (position size : Vec ℚ) :
    (ofPosSize position size).center =
      ⟨position.x + size.x * (1 / 2), position.y + size.y * (1 / 2)⟩ := by
  have middle : (ofPosSize position size).center =
      ⟨position.x + (position.x + size.x - position.x) * 0.5,
        position.y + (position.y + size.y - position.y) * 0.5⟩ := rfl
  rw [middle, add_sub_cancel_left, add_sub_cancel_left, Exact.half_eq]

/-! ## Corners and middles of sides -/

theorem proper_ofPosSize (position : Vec ℚ) {size : Vec ℚ} (width : 0 ≤ size.x)
    (height : 0 ≤ size.y) : (ofPosSize position size).Proper :=
  ⟨le_add_of_nonneg_right width, le_add_of_nonneg_right height⟩

namespace Proper

variable {rect : Rect ℚ} (proper : rect.Proper)

include proper

theorem contains_min : rect.contains rect.min = true :=
  contains_iff.mpr ⟨le_refl _, proper.wide, le_refl _, proper.high⟩

theorem contains_max : rect.contains rect.max = true :=
  contains_iff.mpr ⟨proper.wide, le_refl _, proper.high, le_refl _⟩

theorem contains_center : rect.contains rect.center = true := by
  have wide := proper.wide
  have high := proper.high
  simp only [contains_iff, center, width, height, Exact.half_eq]
  exact ⟨by linarith, by linarith, by linarith, by linarith⟩

theorem contains_leftCenter : rect.contains rect.leftCenter = true := by
  obtain ⟨_, _, top, bottom⟩ := contains_iff.mp proper.contains_center
  exact contains_iff.mpr ⟨le_refl _, proper.wide, top, bottom⟩

theorem contains_rightCenter : rect.contains rect.rightCenter = true := by
  obtain ⟨_, _, top, bottom⟩ := contains_iff.mp proper.contains_center
  exact contains_iff.mpr ⟨proper.wide, le_refl _, top, bottom⟩

theorem contains_topCenter : rect.contains rect.topCenter = true := by
  obtain ⟨left, right, _, _⟩ := contains_iff.mp proper.contains_center
  exact contains_iff.mpr ⟨left, right, le_refl _, proper.high⟩

theorem contains_bottomCenter : rect.contains rect.bottomCenter = true := by
  obtain ⟨left, right, _, _⟩ := contains_iff.mp proper.contains_center
  exact contains_iff.mpr ⟨left, right, proper.high, le_refl _⟩

end Proper

/-! ## Rectangles around others -/

theorem Within.expand (within : inner.Within outer) {less more : ℚ}
    (le : less ≤ more) : (inner.expand less).Within (outer.expand more) where
  left := sub_le_sub within.left le
  right := add_le_add within.right le
  top := sub_le_sub within.top le
  bottom := add_le_add within.bottom le

theorem within_expand (rect : Rect ℚ) {amount : ℚ} (nonneg : 0 ≤ amount) :
    rect.Within (rect.expand amount) where
  left := sub_le_self _ nonneg
  right := le_add_of_nonneg_right nonneg
  top := sub_le_self _ nonneg
  bottom := le_add_of_nonneg_right nonneg

theorem expand_expand_within (rect : Rect ℚ) {first second amount : ℚ}
    (le : first + second ≤ amount) :
    ((rect.expand first).expand second).Within (rect.expand amount) := by
  constructor <;> simp only [expand] <;> linarith

theorem within_union_left (first second : Rect ℚ) : first.Within (first.union second) := by
  constructor <;> simp [union]

theorem within_union_right (first second : Rect ℚ) : second.Within (first.union second) := by
  constructor <;> simp [union]

theorem within_foldl_union (first : Rect ℚ) (rects : List (Rect ℚ)) :
    first.Within (rects.foldl union first) ∧
      ∀ rect ∈ rects, rect.Within (rects.foldl union first) := by
  induction rects generalizing first with
  | nil => simp [Within.refl]
  | cons next rest ih =>
    rw [List.foldl_cons, List.forall_mem_cons]
    obtain ⟨joined, others⟩ := ih (first.union next)
    exact ⟨(within_union_left first next).trans joined,
      (within_union_right first next).trans joined, others⟩

theorem exists_unionAll {rects : List (Rect ℚ)} (nonempty : rects ≠ []) :
    ∃ around, unionAll rects = some around := by
  cases rects with
  | nil => exact absurd rfl nonempty
  | cons first rest => exact ⟨_, rfl⟩

/-- Every rectangle lies in the least one around all. -/
theorem within_of_unionAll {rects : List (Rect ℚ)} {around : Rect ℚ}
    (bounded : unionAll rects = some around) : ∀ rect ∈ rects, rect.Within around := by
  cases rects with
  | nil => cases bounded
  | cons first rest =>
    cases bounded
    exact List.forall_mem_cons.mpr (within_foldl_union first rest)

theorem proper_of_unionAll {rects : List (Rect ℚ)} {around : Rect ℚ}
    (bounded : unionAll rects = some around) (proper : ∀ rect ∈ rects, rect.Proper) :
    around.Proper := by
  obtain ⟨first, mem⟩ : ∃ first, first ∈ rects := by
    apply List.exists_mem_of_ne_nil
    rintro rfl
    cases bounded
  exact (proper first mem).of_within (within_of_unionAll bounded first mem)

/-- The least rectangle around points is the least one around the rectangles of
the single points. -/
theorem bounding_eq_unionAll (points : List (Vec ℚ)) :
    bounding points = unionAll (points.map ofPoint) := by
  cases points with
  | nil => rfl
  | cons first rest => rw [bounding, List.map_cons, unionAll, List.foldl_map]

theorem ofPoint_within_iff {rect : Rect ℚ} :
    (ofPoint point).Within rect ↔ rect.contains point = true := by
  rw [contains_iff]
  constructor
  · rintro ⟨left, right, top, bottom⟩
    exact ⟨left, right, top, bottom⟩
  · rintro ⟨left, right, top, bottom⟩
    exact ⟨left, right, top, bottom⟩

/-- Every point lies in the least rectangle around all. -/
theorem contains_of_bounding {points : List (Vec ℚ)} {around : Rect ℚ}
    (bounded : bounding points = some around) : ∀ point ∈ points, around.contains point = true := by
  intro point mem
  rw [bounding_eq_unionAll] at bounded
  exact ofPoint_within_iff.mp (within_of_unionAll bounded _ (List.mem_map_of_mem mem))

end Rect

end CodeAtlas
