import CodeAtlas.Geometry.Curve
import CodeAtlas.Proofs.Geometry.Rect

/-!
# Points of polygons without rounding

The sides of a closed polygon cross every height an even number of times, and
they cross it between their ends.  So a rectangle that has the corners of a
polygon has every point that the even-odd rule puts into the polygon.
-/

namespace CodeAtlas

/-! ## Between two ends -/

theorem le_mix {low a b part : ℚ} (nonneg : 0 ≤ part) (le_one : part ≤ 1) (first : low ≤ a)
    (second : low ≤ b) : low ≤ a + (b - a) * part := by
  have mixed : a + (b - a) * part - low = (a - low) * (1 - part) + (b - low) * part := by ring
  have split := add_nonneg (mul_nonneg (sub_nonneg.mpr first) (sub_nonneg.mpr le_one))
    (mul_nonneg (sub_nonneg.mpr second) nonneg)
  linarith

theorem mix_le {high a b part : ℚ} (nonneg : 0 ≤ part) (le_one : part ≤ 1) (first : a ≤ high)
    (second : b ≤ high) : a + (b - a) * part ≤ high := by
  have mixed : high - (a + (b - a) * part) = (high - a) * (1 - part) + (high - b) * part := by ring
  have split := add_nonneg (mul_nonneg (sub_nonneg.mpr first) (sub_nonneg.mpr le_one))
    (mul_nonneg (sub_nonneg.mpr second) nonneg)
  linarith

/-- The point lies on the segment between two others. -/
def Vec.Between (first second point : Vec ℚ) : Prop :=
  ∃ part, 0 ≤ part ∧ part ≤ 1 ∧ point.x = first.x + (second.x - first.x) * part ∧
    point.y = first.y + (second.y - first.y) * part

variable [Approximations]

theorem Rect.contains_of_between {rect : Rect ℚ} {first second point : Vec ℚ}
    (firstIn : rect.contains first = true) (secondIn : rect.contains second = true)
    (between : first.Between second point) : rect.contains point = true := by
  rcases between with ⟨part, nonneg, le_one, across, along⟩
  rcases contains_iff.mp firstIn with ⟨left, right, top, bottom⟩
  rcases contains_iff.mp secondIn with ⟨left', right', top', bottom'⟩
  rw [contains_iff, across, along]
  exact ⟨le_mix nonneg le_one left left', mix_le nonneg le_one right right',
    le_mix nonneg le_one top top', mix_le nonneg le_one bottom bottom'⟩

namespace Polygon

/-! ## Where a side crosses a height -/

/-- A side crosses a height between its ends. -/
theorem between_of_crossing? {y crossing : ℚ} {side : Vec ℚ × Vec ℚ}
    (crosses : crossing? y side = some crossing) : side.1.Between side.2 ⟨crossing, y⟩ := by
  rcases side with ⟨a, b⟩
  unfold crossing? at crosses
  dsimp only at crosses ⊢
  split at crosses
  case isFalse => cases crosses
  case isTrue differs =>
      have apart : decide (y < a.y) ≠ decide (y < b.y) := bne_iff_ne.mp differs
      obtain rfl := Option.some.inj crosses
      -- The ends lie on both sides of the height, so the quotient is a part of the way.
      have ends : y < a.y ∧ b.y ≤ y ∨ a.y ≤ y ∧ y < b.y := by
        by_cases above : y < a.y
        · exact Or.inl ⟨above, not_lt.mp fun also => apart (by simp [above, also])⟩
        · exact Or.inr ⟨not_lt.mp above, by simpa [above] using apart⟩
      have slanted : b.y - a.y ≠ 0 := by
        rcases ends with ⟨above, below⟩ | ⟨below, above⟩ <;> linarith
      unfold Vec.Between
      refine ⟨(y - a.y) / (b.y - a.y), ?_, ?_, ?_, ?_⟩
      · rcases ends with ⟨above, below⟩ | ⟨below, above⟩
        · exact div_nonneg_of_nonpos (by linarith) (by linarith)
        · exact div_nonneg (by linarith) (by linarith)
      · rcases ends with ⟨above, below⟩ | ⟨below, above⟩
        · exact div_le_one_of_ge (by linarith) (by linarith)
        · exact div_le_one_of_le₀ (by linarith) (by linarith)
      · field_simp
        ring
      · field_simp
        ring

theorem isSome_crossing? (y : ℚ) (a b : Vec ℚ) :
    (crossing? y (a, b)).isSome = (decide (y < a.y) ^^ decide (y < b.y)) := by
  unfold crossing?
  dsimp only
  split
  · next differs => simpa using differs
  · next same => simpa using same

/-! ## How often a closed line crosses a height -/

/-- Along a line the crossings of a height count the changes from one side of it
to the other, so it depends on the two ends only whether they are odd. -/
theorem foldl_crossings {x y : ℚ} (previous : Vec ℚ) (points : List (Vec ℚ)) (inside : Bool)
    (beyond : ∀ crossing ∈ (points.zip (previous :: points)).filterMap (crossing? y),
      x < crossing) :
    ((points.zip (previous :: points)).filterMap (crossing? y)).foldl
        (fun inside crossing => if x < crossing then !inside else inside) inside =
      (inside ^^ (decide (y < previous.y) ^^
        decide (y < ((previous :: points).getLast (List.cons_ne_nil _ _)).y))) := by
  induction points generalizing previous inside with
  | nil =>
    rw [List.getLast_singleton, Bool.xor_self, Bool.xor_false]
    rfl
  | cons point rest ih =>
    rw [List.getLast_cons (List.cons_ne_nil point rest)]
    rw [List.zip_cons_cons] at beyond ⊢
    have changes := isSome_crossing? y point previous
    cases crosses : crossing? y (point, previous) with
    | none =>
      rw [List.filterMap_cons_none crosses] at beyond ⊢
      rw [ih point inside beyond]
      rw [crosses, Option.isSome_none] at changes
      have same : decide (y < point.y) = decide (y < previous.y) := by
        simpa using changes.symm
      rw [same]
    | some crossing =>
      rw [List.filterMap_cons_some crosses] at beyond ⊢
      rcases List.forall_mem_cons.mp beyond with ⟨first, later⟩
      rw [List.foldl_cons, if_pos first, ih point (!inside) later]
      rw [crosses, Option.isSome_some] at changes
      have flipped : decide (y < previous.y) = !decide (y < point.y) := by
        revert changes
        generalize decide (y < point.y) = above
        generalize decide (y < previous.y) = aboveBefore
        cases above <;> cases aboveBefore <;> simp
      rw [flipped, Bool.not_xor, Bool.not_xor, Bool.xor_not]

/-- Beyond a point to the left of all crossings there is an even number of
them. -/
theorem not_oddBeyond_crossings {points : List (Vec ℚ)} {x y : ℚ}
    (beyond : ∀ crossing ∈ crossings points y, x < crossing) :
    oddBeyond (crossings points y) x = false := by
  unfold crossings at beyond ⊢
  split at beyond
  · next few =>
      rw [if_pos few]
      rfl
  · next many =>
      rw [if_neg many]
      unfold sides at beyond ⊢
      cases last : points.getLast? with
      | none => rfl
      | some end_ =>
        rw [last] at beyond
        have closed : (end_ :: points).getLast (List.cons_ne_nil _ _) = end_ := by
          rcases List.getLast?_eq_some_iff.mp last with ⟨before, rfl⟩
          simp
        rw [oddBeyond, foldl_crossings end_ points false beyond, closed]
        simp

theorem exists_crossing_of_oddBeyond {crossings : List ℚ} {x : ℚ}
    (odd : oddBeyond crossings x = true) : ∃ crossing ∈ crossings, x < crossing := by
  by_contra none
  push Not at none
  have unchanged : oddBeyond crossings x = false := by
    apply List.foldlRecOn (motive := fun (inside : Bool) => inside = false) crossings
    · rfl
    · intro inside outside crossing mem
      rw [if_neg (not_lt.mpr (none crossing mem))]
      exact outside
  rw [unchanged] at odd
  cases odd

/-! ## Polygons in rectangles -/

omit [Approximations] in
theorem mem_of_mem_sides {points : List (Vec ℚ)} {side : Vec ℚ × Vec ℚ}
    (mem : side ∈ sides points) : side.1 ∈ points ∧ side.2 ∈ points := by
  unfold sides at mem
  cases last : points.getLast? with
  | none =>
    rw [last] at mem
    cases mem
  | some end_ =>
    rw [last] at mem
    rcases List.of_mem_zip mem with ⟨first, second⟩
    rcases List.mem_cons.mp second with same | second
    · exact ⟨first, same ▸ List.mem_of_getLast? last⟩
    · exact ⟨first, second⟩

/-- A crossing lies in every rectangle that has the corners. -/
theorem contains_crossing {points : List (Vec ℚ)} {rect : Rect ℚ}
    (corners : ∀ corner ∈ points, rect.contains corner = true) {y crossing : ℚ}
    (mem : crossing ∈ crossings points y) : rect.contains ⟨crossing, y⟩ = true := by
  unfold crossings at mem
  split at mem
  · cases mem
  · rcases List.mem_filterMap.mp mem with ⟨side, listed, crosses⟩
    rcases mem_of_mem_sides listed with ⟨firstMem, secondMem⟩
    exact Rect.contains_of_between (corners _ firstMem) (corners _ secondMem)
      (between_of_crossing? crosses)

/-- A rectangle that has the corners of a polygon has all of its points. -/
theorem contains_of_corners {points : List (Vec ℚ)} {rect : Rect ℚ}
    (corners : ∀ corner ∈ points, rect.contains corner = true) {point : Vec ℚ}
    (inside : Polygon.contains points point = true) : rect.contains point = true := by
  rcases exists_crossing_of_oddBeyond inside with ⟨crossing, mem, beyond⟩
  rcases Rect.contains_iff.mp (contains_crossing corners mem) with ⟨_, right, top, bottom⟩
  refine Rect.contains_iff.mpr ⟨?_, beyond.le.trans right, top, bottom⟩
  -- To the left of the rectangle all crossings would lie beyond the point.
  by_contra outside
  have allBeyond : ∀ crossing ∈ crossings points point.y, point.x < crossing := by
    intro other otherMem
    have left := (Rect.contains_iff.mp (contains_crossing corners otherMem)).1
    exact (not_le.mp outside).trans_le left
  have even := not_oddBeyond_crossings allBeyond
  rw [Polygon.contains, even] at inside
  cases inside

end Polygon

end CodeAtlas
