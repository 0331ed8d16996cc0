import CodeAtlas.Proofs.Geometry.Polygon

/-!
# How far shapes reach

Lines stay between their corners, the outline of a rounded box stays in the box,
and an arrowhead stays near its tip.  All that this needs of lengths and angles
are bounds that the true values have.
-/

namespace CodeAtlas

/-- No leg is longer than its hypotenuse, and cosines and sines are at most
one. -/
structure Approximations.Bounded [Approximations] : Prop where
  width_le_hypot : ∀ x y : ℚ, |x| ≤ Scalar.hypot x y
  height_le_hypot : ∀ x y : ℚ, |y| ≤ Scalar.hypot x y
  cos_le : ∀ angle : ℚ, |Scalar.cos angle| ≤ 1
  sin_le : ∀ angle : ℚ, |Scalar.sin angle| ≤ 1

/-- Functions that keep to these bounds. -/
abbrev Approximations.clamped : Approximations where
  hypot x y := max |x| |y|
  cos x := max (-1) (min 1 (1 - x * x / 2))
  sin x := max (-1) (min 1 x)
  pow base exponent := base ^ ⌊exponent⌋
  infinity := 10 ^ 39

theorem Approximations.bounded_clamped : @Approximations.Bounded .clamped := by
  let _ : Approximations := .clamped
  have clamped : ∀ x : ℚ, |max (-1) (min 1 x)| ≤ 1 := fun x =>
    abs_le.mpr ⟨le_max_left _ _, max_le (by norm_num) (min_le_left _ _)⟩
  constructor
  · exact fun _ _ => le_max_left _ _
  · exact fun _ _ => le_max_right _ _
  · exact fun _ => clamped _
  · exact fun _ => clamped _

theorem abs_share_le {share extent : ℚ} (small : |share| ≤ 1) (nonneg : 0 ≤ extent) :
    |share * extent| ≤ extent := by
  rw [abs_mul, abs_of_nonneg nonneg]
  exact mul_le_of_le_one_left nonneg small

variable [Approximations]

namespace Rect

/-- A rectangle with two opposite corners in another one lies in it. -/
theorem within_of_corners {inner outer : Rect ℚ} (least : outer.contains inner.min = true)
    (greatest : outer.contains inner.max = true) : inner.Within outer := by
  rcases contains_iff.mp least with ⟨left, _, top, _⟩
  rcases contains_iff.mp greatest with ⟨_, right, _, bottom⟩
  exact ⟨left, right, top, bottom⟩

/-- What is not far from a point of a rectangle lies in the expanded one. -/
theorem contains_expand {rect : Rect ℚ} {point : Vec ℚ} (pointIn : rect.contains point = true)
    {amount dx dy : ℚ} (across : |dx| ≤ amount) (along : |dy| ≤ amount) :
    (rect.expand amount).contains ⟨point.x + dx, point.y + dy⟩ = true := by
  rcases contains_iff.mp pointIn with ⟨left, right, top, bottom⟩
  rcases abs_le.mp across with ⟨west, east⟩
  rcases abs_le.mp along with ⟨north, south⟩
  rw [contains_iff, expand]
  dsimp only
  exact ⟨by linarith, by linarith, by linarith, by linarith⟩

end Rect

/-! ## Outlines -/

namespace Outline

/-- A quarter circle stays within its radius around the centre. -/
theorem contains_arc (bounded : Approximations.Bounded) (center : Vec ℚ) {radius : ℚ}
    (nonneg : 0 ≤ radius) (start : ℚ) (segments : Nat) :
    ∀ point ∈ arc center radius start segments,
      ((Rect.ofPoint center).expand radius).contains point = true := by
  intro point mem
  rcases List.mem_map.mp mem with ⟨step, _, rfl⟩
  have centerIn : (Rect.ofPoint center).contains center = true :=
    Rect.ofPoint_within_iff.mp (Rect.Within.refl _)
  apply Rect.contains_expand centerIn
  · rw [mul_comm]
    exact abs_share_le (bounded.cos_le _) nonneg
  · rw [mul_comm]
    exact abs_share_le (bounded.sin_le _) nonneg

/-- The outline of a rounded box stays in the box. -/
theorem contains_rounded (bounded : Approximations.Bounded) {rect : Rect ℚ}
    (proper : rect.Proper) (radius : ℚ) (segments : Nat) :
    ∀ point ∈ rounded rect radius segments, rect.contains point = true := by
  have wide := proper.wide
  have high := proper.high
  unfold rounded
  simp only [Exact.max_eq, Exact.min_eq, Exact.zero_eq, Exact.half_eq, Rect.width, Rect.height]
  obtain ⟨used, usedEq⟩ : ∃ used, used = min (max radius 0)
      (min (rect.max.x - rect.min.x) (rect.max.y - rect.min.y) * (1 / 2)) := ⟨_, rfl⟩
  rw [← usedEq]
  have nonneg : 0 ≤ used := by
    have least : 0 ≤ min (rect.max.x - rect.min.x) (rect.max.y - rect.min.y) :=
      le_min (sub_nonneg.mpr wide) (sub_nonneg.mpr high)
    rw [usedEq]
    exact le_min (le_max_right _ _) (by positivity)
  have half : used ≤ min (rect.max.x - rect.min.x) (rect.max.y - rect.min.y) * (1 / 2) :=
    usedEq ▸ min_le_right _ _
  have halfWidth : used * 2 ≤ rect.max.x - rect.min.x := by
    have := min_le_left (rect.max.x - rect.min.x) (rect.max.y - rect.min.y)
    linarith
  have halfHeight : used * 2 ≤ rect.max.y - rect.min.y := by
    have := min_le_right (rect.max.x - rect.min.x) (rect.max.y - rect.min.y)
    linarith
  -- The circles around the centres of the corners lie in the box.
  have circle : ∀ center : Vec ℚ, rect.min.x + used ≤ center.x → center.x + used ≤ rect.max.x →
      rect.min.y + used ≤ center.y → center.y + used ≤ rect.max.y →
      ∀ start segments, ∀ point ∈ arc center used start segments, rect.contains point = true := by
    intro center left right top bottom start segments point mem
    have within : ((Rect.ofPoint center).expand used).Within rect :=
      ⟨le_sub_iff_add_le.mpr left, right, le_sub_iff_add_le.mpr top, bottom⟩
    exact within.contains (contains_arc bounded center nonneg start segments point mem)
  split
  · simp [Rect.contains_iff, wide, high]
  · split
    · intro point mem
      simp only [List.mem_append] at mem
      rcases mem with ((upperLeft | upperRight) | lowerRight) | lowerLeft
      · apply circle _ _ _ _ _ _ _ point upperLeft <;> dsimp only <;> linarith
      · apply circle _ _ _ _ _ _ _ point upperRight <;> dsimp only <;> linarith
      · apply circle _ _ _ _ _ _ _ point lowerRight <;> dsimp only <;> linarith
      · apply circle _ _ _ _ _ _ _ point lowerLeft <;> dsimp only <;> linarith
    · intro point mem
      cases mem

end Outline

/-! ## Arrowheads -/

theorem Vec.normalized_le (bounded : Approximations.Bounded) (displacement : Vec ℚ) :
    |displacement.normalized.x| ≤ 1 ∧ |displacement.normalized.y| ≤ 1 := by
  unfold Vec.normalized
  dsimp only
  split
  · simp [Vec.zero]
  · next long =>
      have positive : 0 < displacement.length := Exact.epsilon_pos.trans (not_le.mp long)
      constructor
      · rw [abs_div, abs_of_pos positive, div_le_one positive]
        exact bounded.width_le_hypot _ _
      · rw [abs_div, abs_of_pos positive, div_le_one positive]
        exact bounded.height_le_hypot _ _

/-- An arrowhead stays near its tip. -/
theorem contains_arrowhead (bounded : Approximations.Bounded) {rect : Rect ℚ} {tip : Vec ℚ}
    (tipIn : rect.contains tip = true) (start : Vec ℚ) {length width : ℚ}
    (lengthNonneg : 0 ≤ length) (widthNonneg : 0 ≤ width) :
    ∀ corner ∈ arrowhead tip start length width,
      (rect.expand (length + width / 2)).contains corner = true := by
  obtain ⟨direction, directionEq⟩ : ∃ direction : Vec ℚ, direction =
      if (tip - start).normalized.equal .zero then ⟨1.0, 0.0⟩ else (tip - start).normalized :=
    ⟨_, rfl⟩
  have small : |direction.x| ≤ 1 ∧ |direction.y| ≤ 1 := by
    rw [directionEq]
    split
    · simp
    · exact Vec.normalized_le bounded _
  have corners : arrowhead tip start length width =
      [tip, ⟨tip.x - direction.x * length + -direction.y * (width * 0.5),
        tip.y - direction.y * length + direction.x * (width * 0.5)⟩,
      ⟨tip.x - direction.x * length - -direction.y * (width * 0.5),
        tip.y - direction.y * length - direction.x * (width * 0.5)⟩] := by
    rw [directionEq]
    rfl
  have back : ∀ along across : ℚ, |along| ≤ 1 → |across| ≤ 1 →
      |-(along * length) + across * (width / 2)| ≤ length + width / 2 := by
    intro along across alongSmall acrossSmall
    refine (abs_add_le _ _).trans (add_le_add ?_ ?_)
    · rw [abs_neg]
      exact abs_share_le alongSmall lengthNonneg
    · exact abs_share_le acrossSmall (by positivity)
  have turned : |-direction.x| ≤ 1 ∧ |-direction.y| ≤ 1 := by
    rw [abs_neg, abs_neg]
    exact small
  have half : width * 0.5 = width / 2 := by
    rw [Exact.half_eq]
    ring
  intro corner mem
  rw [corners, half] at mem
  simp only [List.mem_cons, List.not_mem_nil, or_false] at mem
  rcases mem with rfl | rfl | rfl
  · exact (rect.within_expand (by positivity)).contains tipIn
  · convert Rect.contains_expand tipIn (back _ _ small.1 turned.2) (back _ _ small.2 small.1)
      using 3 <;> ring
  · convert Rect.contains_expand tipIn (back _ _ small.1 small.2) (back _ _ small.2 turned.1)
      using 3 <;> ring

end CodeAtlas
