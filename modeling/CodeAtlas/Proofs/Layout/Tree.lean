import CodeAtlas.Layout.Tree
import CodeAtlas.Proofs.Geometry.Rect
import CodeAtlas.Proofs.Layout.Grid
import CodeAtlas.Registry.Entity

/-!
# Boxes of a tree stand apart

Every box has a cell of its own, lines of the grid are as wide as their widest
box, and each starts after the end of the one before it.  So without rounding
two boxes have no inner point in common, and the gaps stand between them.
-/

namespace CodeAtlas

/-! ## Running maxima -/

section Growing

variable {α β : Type} [Preorder β] {step : β → α → β}

/-- What never shrinks on the way ends no smaller than it starts. -/
theorem le_foldl_of_grows (grows : ∀ value item, value ≤ step value item) (items : List α)
    (start : β) : start ≤ items.foldl step start := by
  induction items generalizing start with
  | nil => exact le_refl start
  | cons item rest ih =>
    exact (grows start item).trans (ih (step start item))

/-- It ends no smaller than any item on the way asks for. -/
theorem le_foldl_of_mem (grows : ∀ value item, value ≤ step value item) {items : List α} {item : α}
    (mem : item ∈ items) {bound : β} (asks : ∀ value, bound ≤ step value item) (start : β) :
    bound ≤ items.foldl step start := by
  obtain ⟨before, after, rfl⟩ := List.append_of_mem mem
  rw [List.foldl_append, List.foldl_cons]
  exact (asks _).trans (le_foldl_of_grows grows after _)

end Growing

namespace TreeLayouter

/-! ## Cells of boxes -/

section Cells

variable {R : Type} [Scalar R]

omit [Scalar R] in
theorem length_grid (nodes : List (LayoutNode R)) (edges : List LayoutEdge) :
    (grid nodes edges).length = nodes.length := by
  simp [grid, LinkGraph.grid, Placement.toList]

omit [Scalar R] in
/-- Boxes with one cell are one box. -/
theorem eq_of_cell_eq {nodes : List (LayoutNode R)} {edges : List LayoutEdge}
    {first second : LayoutNode R × GridCell} (firstMem : first ∈ nodes.zip (grid nodes edges))
    (secondMem : second ∈ nodes.zip (grid nodes edges)) (same : first.2 = second.2) :
    first = second := by
  have cells : (nodes.zip (grid nodes edges)).map Prod.snd = grid nodes edges :=
    List.map_snd_zip (Nat.le_of_eq (length_grid nodes edges))
  have distinct : ((nodes.zip (grid nodes edges)).map Prod.snd).Nodup := by
    rw [cells]
    exact LinkGraph.nodup_grid _
  exact List.inj_on_of_nodup_map distinct firstMem secondMem same

/-- The upper left corner of a cell. -/
def corner (layouter : TreeLayouter R) (nodes : List (LayoutNode R)) (edges : List LayoutEdge)
    (cell : GridCell) : Vec R :=
  let placed := nodes.zip (grid nodes edges)
  ⟨(lineStarts layouter.horizontalGap
      (placed.map fun (node, cell) => (cell.column, node.width))).getD cell.column 0.0,
    (lineStarts layouter.verticalGap
      (placed.map fun (node, cell) => (cell.row, node.height))).getD cell.row 0.0⟩

theorem map_fst_execute (layouter : TreeLayouter R) (nodes : List (LayoutNode R))
    (edges : List LayoutEdge) :
    (layouter.execute nodes edges).map Prod.fst = nodes.map LayoutNode.id := by
  have cells : nodes.length ≤ (grid nodes edges).length :=
    Nat.le_of_eq (length_grid nodes edges).symm
  conv_rhs => rw [← List.map_fst_zip cells]
  simp only [execute, List.map_map]
  rfl

/-- A position is that of a box in its cell. -/
theorem exists_cell_of_execute {layouter : TreeLayouter R} {nodes : List (LayoutNode R)}
    {edges : List LayoutEdge} {id : NodeId} {position : Vec R}
    (found : (layouter.execute nodes edges).get? id = some position) :
    ∃ node cell, (node, cell) ∈ nodes.zip (grid nodes edges) ∧ node.id = id ∧
      position = ⟨(layouter.corner nodes edges cell).x + node.width * 0.5,
        (layouter.corner nodes edges cell).y⟩ := by
  obtain ⟨before, after, listed, _⟩ := List.lookup_eq_some_iff.mp found
  have mem : (id, position) ∈ layouter.execute nodes edges := by
    rw [← List.mem_reverse, listed]
    simp
  obtain ⟨⟨node, cell⟩, placed, entry⟩ := List.mem_map.mp mem
  obtain ⟨rfl, rfl⟩ := Prod.mk.inj entry
  exact ⟨node, cell, placed, rfl, rfl⟩

end Cells

/-! ## Lines of the grid -/

variable [Approximations]

theorem le_lineExtent_step (line : Nat) (extent : ℚ) (box : Nat × ℚ) :
    extent ≤ if box.1 = line then Scalar.max extent box.2 else extent := by
  split
  · rw [Exact.max_eq]
    exact le_max_left extent box.2
  · exact le_refl extent

theorem lineExtent_nonneg (boxes : List (Nat × ℚ)) (line : Nat) : 0 ≤ lineExtent boxes line := by
  have grown : 0.0 ≤ lineExtent boxes line := le_foldl_of_grows (le_lineExtent_step line) boxes 0.0
  rwa [Exact.zero_eq] at grown

/-- A line is as wide as every box on it. -/
theorem le_lineExtent {boxes : List (Nat × ℚ)} {box : Nat × ℚ} (mem : box ∈ boxes) :
    box.2 ≤ lineExtent boxes box.1 := by
  apply le_foldl_of_mem (le_lineExtent_step box.1) mem
  intro extent
  rw [if_pos rfl, Exact.max_eq]
  exact le_max_right extent box.2

theorem le_getD_offsets {gap : ℚ} (gapNonneg : 0 ≤ gap) {extents : List ℚ}
    (nonneg : ∀ extent ∈ extents, 0 ≤ extent) {index : Nat} (inside : index < extents.length)
    (start : ℚ) : start ≤ (offsets gap start extents).getD index 0.0 := by
  induction extents generalizing start index with
  | nil => cases inside
  | cons extent rest ih =>
    cases index with
    | zero => exact le_refl start
    | succ index =>
      have later := ih (fun other mem => nonneg other (List.mem_cons_of_mem _ mem))
        (Nat.lt_of_succ_lt_succ inside) (start + (extent + gap))
      have extentNonneg := nonneg extent List.mem_cons_self
      rw [offsets, List.getD_cons_succ]
      linarith

/-- A line ends, and its gap with it, before any later line starts. -/
theorem getD_offsets_add_le {gap : ℚ} (gapNonneg : 0 ≤ gap) {extents : List ℚ}
    (nonneg : ∀ extent ∈ extents, 0 ≤ extent) {first second : Nat} (before : first < second)
    (inside : second < extents.length) (start : ℚ) :
    (offsets gap start extents).getD first 0.0 + (extents.getD first 0.0 + gap) ≤
      (offsets gap start extents).getD second 0.0 := by
  induction extents generalizing start first second with
  | nil => cases inside
  | cons extent rest ih =>
    have restNonneg : ∀ other ∈ rest, 0 ≤ other :=
      fun other mem => nonneg other (List.mem_cons_of_mem _ mem)
    obtain ⟨second, rfl⟩ := Nat.exists_eq_succ_of_ne_zero (Nat.ne_zero_of_lt before)
    have insideRest := Nat.lt_of_succ_lt_succ inside
    -- The line at hand is compared with all later ones at once.
    cases first with
    | zero => exact le_getD_offsets gapNonneg restNonneg insideRest _
    | succ first =>
      exact ih restNonneg (Nat.lt_of_succ_lt_succ before) insideRest _

/-- A box on a line ends, and the gap with it, before any later line starts. -/
theorem lineStarts_add_le {gap : ℚ} (gapNonneg : 0 ≤ gap) {boxes : List (Nat × ℚ)}
    {first second : Nat × ℚ} (firstMem : first ∈ boxes) (secondMem : second ∈ boxes)
    (before : first.1 < second.1) :
    (lineStarts gap boxes).getD first.1 0.0 + first.2 + gap ≤
      (lineStarts gap boxes).getD second.1 0.0 := by
  let count := boxes.foldl (fun count box => Nat.max count (box.1 + 1)) 0
  let extents := (List.range count).map (lineExtent boxes)
  have counted : second.1 < count :=
    le_foldl_of_mem (fun count box => Nat.le_max_left count (box.1 + 1)) secondMem
      (fun count => Nat.le_max_right count (second.1 + 1)) 0
  have nonneg : ∀ extent ∈ extents, 0 ≤ extent := by
    intro extent mem
    obtain ⟨line, _, rfl⟩ := List.mem_map.mp mem
    exact lineExtent_nonneg boxes line
  have inside : second.1 < extents.length := by simpa [extents] using counted
  have extentEq : extents.getD first.1 0.0 = lineExtent boxes first.1 := by
    simp [extents, List.getElem?_range (Nat.lt_trans before counted)]
  have ordered := getD_offsets_add_le gapNonneg nonneg before inside 0.0
  have fits := le_lineExtent firstMem
  rw [extentEq] at ordered
  have startsEq : lineStarts gap boxes = offsets gap 0.0 extents := rfl
  rw [startsEq]
  linarith

end TreeLayouter

/-! ## Boxes -/

namespace TreeLayouter

variable [Approximations] {layouter : TreeLayouter ℚ} {nodes : List (LayoutNode ℚ)}
  {edges : List LayoutEdge} {first second : LayoutNode ℚ × GridCell}

theorem corner_add_le_of_column (gapNonneg : 0 ≤ layouter.horizontalGap)
    (firstMem : first ∈ nodes.zip (grid nodes edges))
    (secondMem : second ∈ nodes.zip (grid nodes edges)) (before : first.2.column < second.2.column) :
    (layouter.corner nodes edges first.2).x + first.1.width + layouter.horizontalGap ≤
      (layouter.corner nodes edges second.2).x := by
  have ordered := lineStarts_add_le gapNonneg
    (List.mem_map_of_mem (f := fun entry => (entry.2.column, entry.1.width)) firstMem)
    (List.mem_map_of_mem secondMem) before
  simp only [corner]
  exact ordered

theorem corner_add_le_of_row (gapNonneg : 0 ≤ layouter.verticalGap)
    (firstMem : first ∈ nodes.zip (grid nodes edges))
    (secondMem : second ∈ nodes.zip (grid nodes edges)) (before : first.2.row < second.2.row) :
    (layouter.corner nodes edges first.2).y + first.1.height + layouter.verticalGap ≤
      (layouter.corner nodes edges second.2).y := by
  have ordered := lineStarts_add_le gapNonneg
    (List.mem_map_of_mem (f := fun entry => (entry.2.row, entry.1.height)) firstMem)
    (List.mem_map_of_mem secondMem) before
  simp only [corner]
  exact ordered

/-- Different boxes stand apart in their cells. -/
theorem apart_of_ne (horizontal : 0 ≤ layouter.horizontalGap) (vertical : 0 ≤ layouter.verticalGap)
    (firstMem : first ∈ nodes.zip (grid nodes edges))
    (secondMem : second ∈ nodes.zip (grid nodes edges)) (different : first ≠ second) :
    Rect.Apart
      (.ofPosSize (layouter.corner nodes edges first.2) ⟨first.1.width, first.1.height⟩)
      (.ofPosSize (layouter.corner nodes edges second.2) ⟨second.1.width, second.1.height⟩) := by
  rcases Nat.lt_trichotomy first.2.column second.2.column with before | sameColumn | after
  · left
    exact (le_add_of_nonneg_right horizontal).trans
      (corner_add_le_of_column horizontal firstMem secondMem before)
  · rcases Nat.lt_trichotomy first.2.row second.2.row with before | sameRow | after
    · right; right; left
      exact (le_add_of_nonneg_right vertical).trans
        (corner_add_le_of_row vertical firstMem secondMem before)
    · have sameCell := GridCell.eq_of_lines_eq sameColumn sameRow
      exact absurd (eq_of_cell_eq firstMem secondMem sameCell) different
    · right; right; right
      exact (le_add_of_nonneg_right vertical).trans
        (corner_add_le_of_row vertical secondMem firstMem after)
  · right; left
    exact (le_add_of_nonneg_right horizontal).trans
      (corner_add_le_of_column horizontal secondMem firstMem after)

end TreeLayouter

/-- The box with a given upper left corner. -/
theorem boxAt_eq [Approximations] (corner size : Vec ℚ) :
    boxAt ⟨corner.x + size.x * 0.5, corner.y⟩ size = .ofPosSize corner size := by
  simp only [boxAt, add_sub_cancel_right]

/-! ## Positions -/

/-- Where each box has one position, this one counts. -/
theorem Positions.get?_of_mem {R : Type} {positions : Positions R}
    (distinct : (positions.map Prod.fst).Nodup) {id : NodeId} {position : Vec R}
    (mem : (id, position) ∈ positions) : positions.get? id = some position := by
  obtain ⟨before, after, split⟩ := List.append_of_mem (List.mem_reverse.mpr mem)
  rw [Positions.get?, List.lookup_eq_some_iff]
  refine ⟨before, after, split, ?_⟩
  rw [← List.nodup_reverse, ← List.map_reverse, split, List.map_append] at distinct
  intro entry entryMem
  have absent : entry.1 ∉ ((id, position) :: after).map Prod.fst :=
    List.disjoint_of_nodup_append distinct (List.mem_map_of_mem entryMem)
  exact bne_iff_ne.mpr (List.ne_of_not_mem_cons absent).symm

/-- The box of a node at its position. -/
def LayoutNode.box? {R : Type} [Scalar R] (node : LayoutNode R) (positions : Positions R) :
    Option (Rect R) :=
  (positions.get? node.id).map fun position => boxAt position ⟨node.width, node.height⟩

namespace TreeLayouter

/-- Boxes in two cells have no inner point in common, and the gap of the layout
stands between their rows, or between them if they share a row. -/
structure Spaced (layouter : TreeLayouter ℚ) (firstCell secondCell : GridCell)
    (first second : Rect ℚ) : Prop where
  disjoint : ∀ point, first.Inside point → ¬ second.Inside point
  rows : firstCell.row ≠ secondCell.row →
    first.max.y + layouter.verticalGap ≤ second.min.y ∨
      second.max.y + layouter.verticalGap ≤ first.min.y
  columns : firstCell.row = secondCell.row →
    first.max.x + layouter.horizontalGap ≤ second.min.x ∨
      second.max.x + layouter.horizontalGap ≤ first.min.x

variable [Approximations] {layouter : TreeLayouter ℚ} {nodes : List (LayoutNode ℚ)}
  {edges : List LayoutEdge}

/-- Where ids differ, a box stands in its cell. -/
theorem box?_execute (distinct : (nodes.map LayoutNode.id).Nodup)
    {entry : LayoutNode ℚ × GridCell} (mem : entry ∈ nodes.zip (grid nodes edges)) :
    entry.1.box? (layouter.execute nodes edges) =
      some (.ofPosSize (layouter.corner nodes edges entry.2) ⟨entry.1.width, entry.1.height⟩) := by
  have position : (layouter.execute nodes edges).get? entry.1.id =
      some ⟨(layouter.corner nodes edges entry.2).x + entry.1.width * 0.5,
        (layouter.corner nodes edges entry.2).y⟩ := by
    apply Positions.get?_of_mem
    · rwa [map_fst_execute]
    · exact List.mem_map_of_mem mem
  rw [LayoutNode.box?, position, Option.map_some]
  exact congrArg some (boxAt_eq _ ⟨entry.1.width, entry.1.height⟩)

theorem spaced_of_ne (horizontal : 0 ≤ layouter.horizontalGap) (vertical : 0 ≤ layouter.verticalGap)
    {first second : LayoutNode ℚ × GridCell} (firstMem : first ∈ nodes.zip (grid nodes edges))
    (secondMem : second ∈ nodes.zip (grid nodes edges)) (different : first ≠ second) :
    layouter.Spaced first.2 second.2
      (.ofPosSize (layouter.corner nodes edges first.2) ⟨first.1.width, first.1.height⟩)
      (.ofPosSize (layouter.corner nodes edges second.2) ⟨second.1.width, second.1.height⟩) := by
  constructor
  · intro point inFirst inSecond
    exact inFirst.not_contains
      (apart_of_ne horizontal vertical firstMem secondMem different) inSecond.contains
  · intro rows
    rcases Nat.lt_or_gt_of_ne rows with before | after
    · exact Or.inl (corner_add_le_of_row vertical firstMem secondMem before)
    · exact Or.inr (corner_add_le_of_row vertical secondMem firstMem after)
  · intro sameRow
    have columns : first.2.column ≠ second.2.column := by
      intro sameColumn
      have sameCell := GridCell.eq_of_lines_eq sameColumn sameRow
      exact different (eq_of_cell_eq firstMem secondMem sameCell)
    rcases Nat.lt_or_gt_of_ne columns with before | after
    · exact Or.inl (corner_add_le_of_column horizontal firstMem secondMem before)
    · exact Or.inr (corner_add_le_of_column horizontal secondMem firstMem after)

/-- Without rounding, for all nodes with different ids, all edges and all gaps
that are not negative: the layout has one position for each node, and the boxes
at these positions are spaced. -/
theorem execute_spaced (layouter : TreeLayouter ℚ) (nodes : List (LayoutNode ℚ))
    (edges : List LayoutEdge) (distinct : (nodes.map LayoutNode.id).Nodup)
    (horizontal : 0 ≤ layouter.horizontalGap) (vertical : 0 ≤ layouter.verticalGap) :
    (layouter.execute nodes edges).map Prod.fst = nodes.map LayoutNode.id ∧
    ∀ first ∈ nodes.zip (grid nodes edges), ∀ second ∈ nodes.zip (grid nodes edges),
      first ≠ second → ∃ firstBox secondBox,
        first.1.box? (layouter.execute nodes edges) = some firstBox ∧
        second.1.box? (layouter.execute nodes edges) = some secondBox ∧
        layouter.Spaced first.2 second.2 firstBox secondBox := by
  refine ⟨map_fst_execute layouter nodes edges, ?_⟩
  intro first firstMem second secondMem different
  exact ⟨_, _, box?_execute distinct firstMem, box?_execute distinct secondMem,
    spaced_of_ne horizontal vertical firstMem secondMem different⟩

omit [Approximations] in
/-- A caller with two callees that are wider and higher than it, and an empty box
in a row of its own. -/
theorem execute_spaced_sample :
    letI : Approximations := .sample
    let layouter : TreeLayouter ℚ := ⟨10, 5⟩
    let nodes : List (LayoutNode ℚ) :=
      [⟨"caller", 100, 40⟩, ⟨"high", 60, 80⟩, ⟨"wide", 140, 40⟩, ⟨"empty", 0, 0⟩]
    let edges : List LayoutEdge := [⟨"caller", "high", .calls⟩, ⟨"caller", "wide", .sendsTo⟩]
    (nodes.map LayoutNode.id).Nodup ∧ 0 ≤ layouter.horizontalGap ∧ 0 ≤ layouter.verticalGap ∧
    (layouter.execute nodes edges).map Prod.fst = ["caller", "high", "wide", "empty"] ∧
    ∀ first ∈ nodes.zip (grid nodes edges), ∀ second ∈ nodes.zip (grid nodes edges),
      first ≠ second → ∃ firstBox secondBox,
        first.1.box? (layouter.execute nodes edges) = some firstBox ∧
        second.1.box? (layouter.execute nodes edges) = some secondBox ∧
        layouter.Spaced first.2 second.2 firstBox secondBox := by
  let _ : Approximations := .sample
  intro layouter nodes edges
  have distinct : (nodes.map LayoutNode.id).Nodup := by decide
  have horizontal : 0 ≤ layouter.horizontalGap := by decide +kernel
  have vertical : 0 ≤ layouter.verticalGap := by decide +kernel
  exact ⟨distinct, horizontal, vertical,
    execute_spaced layouter nodes edges distinct horizontal vertical⟩

end TreeLayouter

end CodeAtlas
