import CodeAtlas.Proofs.Layout.Tree
import Mathlib.Data.Fintype.EquivFin

/-!
# The grid has no gaps

Rows are opened one below the other and never emptied.  A node that opens a row
stands one column right of a node placed before it, or in the first column, and
a row grows at its right end only.  So no row and no column is left out, and the
cells of a row are next to each other.
-/

namespace CodeAtlas

/-- Lines that are in use together with all lines before them are numbered
without gaps, unless all lines are in use. -/
theorem exists_iff_lt_of_closed {used : Nat → Prop} (closed : ∀ {line}, used (line + 1) → used line)
    (unused : ∃ line, ¬ used line) : ∃ count, ∀ line, used line ↔ line < count := by
  classical
  have before : ∀ {first second}, first ≤ second → used second → used first := by
    intro first second le usedSecond
    induction le with
    | refl => exact usedSecond
    | step _ ih => exact ih (closed usedSecond)
  refine ⟨Nat.find unused, fun line => ?_⟩
  constructor
  · intro usedLine
    by_contra late
    exact Nat.find_spec unused (before (Nat.le_of_not_lt late) usedLine)
  · intro early
    exact not_not.mp (Nat.find_min unused early)

namespace Placement

variable {n : Nat} {children : Fin n → List (Fin n)} {placement next : Placement n} {node : Fin n}

/-- Some node has the cell. -/
def Uses (placement : Placement n) (cell : GridCell) : Prop :=
  ∃ node, placement.cells.get node = some cell

/-- A node that gets a cell adds this cell to those in use. -/
theorem Puts.uses_iff {cell : GridCell} (puts : Puts placement next node cell) {used : GridCell} :
    next.Uses used ↔ used = cell ∨ placement.Uses used := by
  constructor
  · rintro ⟨other, placed⟩
    rcases puts.placed_cases placed with ⟨_, same⟩ | ⟨_, old⟩
    · exact Or.inl same
    · exact Or.inr ⟨other, old⟩
  · rintro (rfl | ⟨other, placed⟩)
    · exact ⟨node, puts.own⟩
    · exact ⟨other, puts.kept placed⟩

/-- No row, no column and no cell within a row is left out. -/
structure Compact (placement : Placement n) : Prop where
  rows : ∀ {row : Nat}, row < placement.nextRow → ∃ column, placement.Uses ⟨column, row⟩
  columns : ∀ {column row : Nat}, placement.Uses ⟨column + 1, row⟩ →
    ∃ other, placement.Uses ⟨column, other⟩
  between : ∀ {first column last row : Nat}, placement.Uses ⟨first, row⟩ →
    placement.Uses ⟨last, row⟩ → first ≤ column → column ≤ last → placement.Uses ⟨column, row⟩

theorem compact_empty (n : Nat) : (empty n).Compact := by
  constructor
  · exact fun below => absurd below (Nat.not_lt_zero _)
  · simp [Uses]
  · simp [Uses]

/-- A new cell leaves no gap if the column before it is in use, and, unless its
row is fresh, the cell before it is the last one of the row. -/
theorem Compact.extend (compact : placement.Compact) {column row : Nat}
    (puts : Puts placement next node ⟨column, row⟩)
    (rows : ∀ {other : Nat}, other < next.nextRow → other = row ∨ other < placement.nextRow)
    (left : ∀ {before : Nat}, column = before + 1 → ∃ other, placement.Uses ⟨before, other⟩)
    (last : ∀ {other : Nat}, placement.Uses ⟨other, row⟩ →
      ∃ before, column = before + 1 ∧ other ≤ before ∧ placement.Uses ⟨before, row⟩) :
    next.Compact := by
  have old : ∀ {used}, placement.Uses used → next.Uses used :=
    fun used => puts.uses_iff.mpr (Or.inr used)
  constructor
  · intro other below
    rcases rows below with rfl | earlier
    · exact ⟨column, node, puts.own⟩
    · obtain ⟨first, used⟩ := compact.rows earlier
      exact ⟨first, old used⟩
  · intro before other used
    rcases puts.uses_iff.mp used with new | earlier
    · obtain ⟨there, leftUsed⟩ := left (GridCell.mk.inj new).1.symm
      exact ⟨there, old leftUsed⟩
    · obtain ⟨there, leftUsed⟩ := compact.columns earlier
      exact ⟨there, old leftUsed⟩
  · intro first middle final other firstUsed finalUsed after before
    rcases puts.uses_iff.mp firstUsed with firstNew | firstOld
    · obtain ⟨rfl, rfl⟩ := GridCell.mk.inj firstNew
      rcases puts.uses_iff.mp finalUsed with finalNew | finalOld
      · obtain ⟨rfl, _⟩ := GridCell.mk.inj finalNew
        exact Nat.le_antisymm before after ▸ firstUsed
      · -- No cell of the row was right of the new one.
        obtain ⟨_, rfl, le, _⟩ := last finalOld
        omega
    · rcases puts.uses_iff.mp finalUsed with finalNew | finalOld
      · obtain ⟨rfl, rfl⟩ := GridCell.mk.inj finalNew
        obtain ⟨ending, rfl, le, endUsed⟩ := last firstOld
        rcases Nat.lt_or_eq_of_le before with inner | rfl
        · exact old (compact.between firstOld endUsed after (Nat.le_of_lt_succ inner))
        · exact finalUsed
      · exact old (compact.between firstOld finalOld after before)

theorem Step.compact (step : Step children placement next) (tidy : placement.Tidy)
    (compact : placement.Compact) : next.Compact := by
  obtain ⟨node, cell, puts, gives⟩ := step.gives
  have fresh : ∀ {column : Nat}, ¬ placement.Uses ⟨column, placement.nextRow⟩ := by
    rintro column ⟨other, placed⟩
    exact Nat.lt_irrefl _ (tidy.below placed)
  cases gives with
  | root rows _ =>
    apply compact.extend puts
    · intro other below
      omega
    · exact nofun
    · exact fun used => absurd used fresh
  | @branch parent cell _ placed _ rows _ =>
    apply compact.extend puts
    · intro other below
      omega
    · rintro _ ⟨⟩
      exact ⟨cell.row, parent, placed⟩
    · exact fun used => absurd used fresh
  | @first parent cell _ placed unmarked rows _ =>
    apply compact.extend puts
    · intro other below
      exact Or.inr (rows ▸ below)
    · rintro _ ⟨⟩
      exact ⟨cell.row, parent, placed⟩
    · rintro column ⟨other, otherPlaced⟩
      exact ⟨cell.column, rfl, tidy.ends placed unmarked otherPlaced rfl, parent, placed⟩

end Placement

namespace LinkGraph

variable {n : Nat}

theorem mem_grid_iff (graph : LinkGraph n) {cell : GridCell} :
    cell ∈ graph.grid ↔ graph.placement.Uses cell := by
  rw [grid_eq, Placement.toList_eq, List.mem_map]
  constructor
  · rintro ⟨node, _, rfl⟩
    obtain ⟨cell, placed⟩ := graph.exists_cell node
    exact ⟨node, by rw [placed, Option.getD_some]⟩
  · rintro ⟨node, placed⟩
    exact ⟨node, List.mem_finRange node, by rw [placed, Option.getD_some]⟩

theorem compact_placement (graph : LinkGraph n) : graph.placement.Compact :=
  graph.placement_keeps Placement.Compact Placement.Step.compact (Placement.compact_empty n)

theorem exists_row_iff (graph : LinkGraph n) :
    ∃ rows, ∀ row, (∃ cell ∈ graph.grid, cell.row = row) ↔ row < rows := by
  refine ⟨graph.placement.nextRow, fun row => ?_⟩
  simp only [mem_grid_iff]
  constructor
  · rintro ⟨cell, ⟨node, placed⟩, rfl⟩
    exact graph.tidy_placement.below placed
  · intro below
    obtain ⟨column, used⟩ := graph.compact_placement.rows below
    exact ⟨⟨column, row⟩, used, rfl⟩

theorem exists_column_iff (graph : LinkGraph n) :
    ∃ columns, ∀ column, (∃ cell ∈ graph.grid, cell.column = column) ↔ column < columns := by
  apply exists_iff_lt_of_closed
  · rintro column ⟨⟨_, row⟩, mem, rfl⟩
    obtain ⟨other, used⟩ := graph.compact_placement.columns (graph.mem_grid_iff.mp mem)
    exact ⟨⟨column, other⟩, graph.mem_grid_iff.mpr used, rfl⟩
  · obtain ⟨column, unused⟩ :=
      Infinite.exists_notMem_finset (graph.grid.map GridCell.column).toFinset
    exact ⟨column, by simpa using unused⟩

end LinkGraph

/-- For all nodes and edges there is a cell for each node and none is given out
twice; rows and columns in use are numbered without gaps, and so are the cells of
each row. -/
theorem grid_compact {R : Type} (nodes : List (LayoutNode R)) (edges : List LayoutEdge) :
    (TreeLayouter.grid nodes edges).length = nodes.length ∧
    (TreeLayouter.grid nodes edges).Nodup ∧
    (∃ rows, ∀ row, (∃ cell ∈ TreeLayouter.grid nodes edges, cell.row = row) ↔ row < rows) ∧
    (∃ columns, ∀ column,
      (∃ cell ∈ TreeLayouter.grid nodes edges, cell.column = column) ↔ column < columns) ∧
    ∀ first ∈ TreeLayouter.grid nodes edges, ∀ last ∈ TreeLayouter.grid nodes edges,
      first.row = last.row → ∀ column, first.column ≤ column → column ≤ last.column →
        ⟨column, first.row⟩ ∈ TreeLayouter.grid nodes edges := by
  refine ⟨TreeLayouter.length_grid nodes edges, LinkGraph.nodup_grid _,
    LinkGraph.exists_row_iff _, LinkGraph.exists_column_iff _, ?_⟩
  intro first firstMem last lastMem sameRow column after before
  rw [TreeLayouter.grid, LinkGraph.mem_grid_iff] at firstMem lastMem ⊢
  exact (LinkGraph.compact_placement _).between firstMem (sameRow ▸ lastMem) after before

end CodeAtlas
