import CodeAtlas.Layout.Grid
import Mathlib.Data.List.Nodup
import Mathlib.Logic.Relation

/-!
# No two nodes share a cell

The walk over a call tree gives out cells in two ways only: the first cell of a
fresh row, and the cell after that of a parent.  The cell after a parent's is
free because a row is continued at its right end only, which is what the marks
of continued nodes are for.
-/

namespace CodeAtlas

theorem GridCell.eq_of_lines_eq {first second : GridCell} (columns : first.column = second.column)
    (rows : first.row = second.row) : first = second := by
  cases first
  cases second
  simp only [GridCell.mk.injEq]
  exact ⟨columns, rows⟩

/-- One place of a vector changes. -/
theorem get_set {α : Type} {n : Nat} (values : Vector α n) (index other : Fin n) (value : α) :
    (values.set index.val value index.isLt).get other =
      if other = index then value else values.get other := by
  change (values.set index.val value index.isLt)[other.val] =
    if other = index then value else values[other.val]
  simp only [Vector.getElem_set, Fin.val_inj, eq_comm]

namespace Placement

variable {n : Nat}

@[simp]
theorem cells_empty (node : Fin n) : (empty n).cells.get node = none := by
  change (Vector.replicate n none)[node.val] = none
  simp

@[simp]
theorem continued_empty (node : Fin n) : (empty n).continued.get node = false := by
  change (Vector.replicate n false)[node.val] = false
  simp

@[simp]
theorem cells_put (placement : Placement n) (node other : Fin n) (cell : GridCell) :
    (placement.put node cell).cells.get other =
      if other = node then some cell else placement.cells.get other :=
  get_set placement.cells node other (some cell)

@[simp]
theorem cells_putRoot (placement : Placement n) (node other : Fin n) :
    (placement.putRoot node).cells.get other =
      if other = node then some ⟨0, placement.nextRow⟩ else placement.cells.get other :=
  cells_put placement node other _

theorem putChild_of_marked {placement : Placement n} {parent : Fin n}
    (mark : placement.continued.get parent = true)
    (child : Fin n) (cell : GridCell) :
    placement.putChild child parent cell =
      { placement.put child ⟨cell.column + 1, placement.nextRow⟩ with
        nextRow := placement.nextRow + 1 } :=
  if_pos mark

theorem putChild_of_unmarked {placement : Placement n} {parent : Fin n}
    (mark : placement.continued.get parent = false)
    (child : Fin n) (cell : GridCell) :
    placement.putChild child parent cell =
      { placement.put child ⟨cell.column + 1, cell.row⟩ with
        continued := placement.continued.set parent.val true parent.isLt } :=
  if_neg (Bool.eq_false_iff.mp mark)

/-! ## Steps of the walk -/

/-- A node that has no cell gets one: a fresh row, or the cell after that of a
node whose child it is. -/
inductive Step (children : Fin n → List (Fin n)) (placement : Placement n) :
    Placement n → Prop where
  | root {node : Fin n} (free : placement.cells.get node = none) :
      Step children placement (placement.putRoot node)
  | child {node parent : Fin n} {cell : GridCell} (free : placement.cells.get node = none)
      (placed : placement.cells.get parent = some cell) (linked : node ∈ children parent) :
      Step children placement (placement.putChild node parent cell)

/-- Cells are given out one after the other. -/
abbrev Grows (children : Fin n → List (Fin n)) : Placement n → Placement n → Prop :=
  Relation.ReflTransGen (Step children)

variable {children : Fin n → List (Fin n)}

theorem grows_explore {stack : List (Fin n × Fin n)} {placement : Placement n}
    (linked : ∀ entry ∈ stack, entry.1 ∈ children entry.2) :
    Grows children placement (explore children stack placement) := by
  fun_induction explore children stack placement with
  | case1 placement => exact .refl
  | case2 node parent stack placement cell free placed next fresh ih =>
    have step : Step children placement next :=
      .child free placed (linked _ List.mem_cons_self)
    refine .head step (ih ?_)
    intro entry mem
    rcases List.mem_append.mp mem with pushed | waiting
    · obtain ⟨child, childMem, rfl⟩ := List.mem_map.mp pushed
      exact (List.mem_filter.mp (List.mem_reverse.mp childMem)).1
    · exact linked entry (List.mem_cons_of_mem _ waiting)
  | case3 node parent stack placement _ ih =>
    exact ih fun entry waiting => linked entry (List.mem_cons_of_mem _ waiting)

theorem isUnplaced_iff {placement : Placement n} {node : Fin n} :
    placement.isUnplaced node = true ↔ placement.cells.get node = none :=
  Option.isNone_iff_eq_none

theorem grows_growRoot (placement : Placement n) (root : Fin n) :
    Grows children placement (growRoot children placement root) := by
  unfold growRoot
  split
  · next unplaced =>
      refine .head (.root (isUnplaced_iff.mp unplaced)) (grows_explore ?_)
      intro entry mem
      obtain ⟨child, childMem, rfl⟩ := List.mem_map.mp mem
      exact List.mem_reverse.mp childMem
  · exact .refl

theorem grows_fill (placement : Placement n) (node : Fin n) :
    Grows children placement (placement.fill node) := by
  unfold fill
  split
  · next unplaced => exact .single (.root (isUnplaced_iff.mp unplaced))
  · exact .refl

/-- What gives out cells at each of some nodes gives out cells. -/
theorem grows_foldl {place : Placement n → Fin n → Placement n}
    (grows : ∀ placement node, Grows children placement (place placement node))
    (nodes : List (Fin n)) (placement : Placement n) :
    Grows children placement (nodes.foldl place placement) := by
  induction nodes generalizing placement with
  | nil => exact .refl
  | cons node rest ih =>
    exact (grows placement node).trans (ih (place placement node))

/-! ## What a step gives -/

/-- One node gets a cell, and all others are left alone. -/
structure Puts (placement next : Placement n) (node : Fin n) (cell : GridCell) : Prop where
  free : placement.cells.get node = none
  cells : ∀ other, next.cells.get other =
    if other = node then some cell else placement.cells.get other

namespace Puts

variable {placement next : Placement n} {node other : Fin n} {cell otherCell : GridCell}

section

variable (puts : Puts placement next node cell)
include puts

theorem own : next.cells.get node = some cell := by
  rw [puts.cells, if_pos rfl]

theorem ne_of_placed (placed : placement.cells.get other = some otherCell) : other ≠ node := by
  rintro rfl
  rw [puts.free] at placed
  cases placed

theorem kept (placed : placement.cells.get other = some otherCell) :
    next.cells.get other = some otherCell := by
  rw [puts.cells, if_neg (puts.ne_of_placed placed), placed]

theorem placed_cases (placed : next.cells.get other = some otherCell) :
    (other = node ∧ otherCell = cell) ∨
      (other ≠ node ∧ placement.cells.get other = some otherCell) := by
  rw [puts.cells] at placed
  split at placed
  · next same => exact Or.inl ⟨same, (Option.some.inj placed).symm⟩
  · next different => exact Or.inr ⟨different, placed⟩

end

end Puts

/-- Where the cell that a node gets comes from: the node becomes a root, it opens
a row beside the one that its parent's first child has taken, or it is that first
child. -/
inductive Gives (children : Fin n → List (Fin n)) (placement next : Placement n) (node : Fin n) :
    GridCell → Prop where
  | root (rows : next.nextRow = placement.nextRow + 1)
      (marks : next.continued = placement.continued) :
      Gives children placement next node ⟨0, placement.nextRow⟩
  | branch {parent : Fin n} {cell : GridCell} (linked : node ∈ children parent)
      (placed : placement.cells.get parent = some cell)
      (marked : placement.continued.get parent = true)
      (rows : next.nextRow = placement.nextRow + 1)
      (marks : next.continued = placement.continued) :
      Gives children placement next node ⟨cell.column + 1, placement.nextRow⟩
  | first {parent : Fin n} {cell : GridCell} (linked : node ∈ children parent)
      (placed : placement.cells.get parent = some cell)
      (unmarked : placement.continued.get parent = false)
      (rows : next.nextRow = placement.nextRow)
      (marks : ∀ other, next.continued.get other =
        if other = parent then true else placement.continued.get other) :
      Gives children placement next node ⟨cell.column + 1, cell.row⟩

theorem Step.gives {placement next : Placement n} (step : Step children placement next) :
    ∃ node cell, Puts placement next node cell ∧ Gives children placement next node cell := by
  cases step with
  | @root node free =>
    exact ⟨node, _, ⟨free, cells_putRoot placement node⟩, .root rfl rfl⟩
  | @child node parent cell free placed linked =>
    cases mark : placement.continued.get parent with
    | true =>
      rw [putChild_of_marked mark]
      exact ⟨node, _, ⟨free, (cells_put placement node · _)⟩, .branch linked placed mark rfl rfl⟩
    | false =>
      rw [putChild_of_unmarked mark]
      exact ⟨node, _, ⟨free, (cells_put placement node · _)⟩,
        .first linked placed mark rfl (get_set placement.continued parent · true)⟩

/-! ## Cells are given out for good -/

theorem Step.kept {placement next : Placement n} (step : Step children placement next)
    {node : Fin n} {cell : GridCell} (placed : placement.cells.get node = some cell) :
    next.cells.get node = some cell := by
  obtain ⟨_, _, puts, _⟩ := step.gives
  exact puts.kept placed

theorem Grows.kept {placement next : Placement n} (grows : Grows children placement next)
    {node : Fin n} {cell : GridCell} (placed : placement.cells.get node = some cell) :
    next.cells.get node = some cell := by
  induction grows with
  | refl => exact placed
  | tail _ step ih => exact step.kept ih

theorem exists_cell_fill (placement : Placement n) (node : Fin n) :
    ∃ cell, (placement.fill node).cells.get node = some cell := by
  unfold fill
  split
  · exact ⟨_, (cells_putRoot placement node node).trans (if_pos rfl)⟩
  · next placed =>
      rw [isUnplaced_iff] at placed
      exact Option.ne_none_iff_exists'.mp placed

/-- Filling leaves none of the nodes out. -/
theorem exists_cell_foldl_fill {nodes : List (Fin n)} {node : Fin n} (mem : node ∈ nodes)
    (placement : Placement n) : ∃ cell, (nodes.foldl fill placement).cells.get node = some cell := by
  obtain ⟨before, after, rfl⟩ := List.append_of_mem mem
  rw [List.foldl_append, List.foldl_cons]
  obtain ⟨cell, placed⟩ := exists_cell_fill (before.foldl fill placement) node
  have grows : Grows (fun _ => []) _ (after.foldl fill _) :=
    grows_foldl grows_fill after ((before.foldl fill placement).fill node)
  exact ⟨cell, grows.kept placed⟩

/-! ## Cells are given out once -/

/-- What keeps cells apart while they are given out. -/
structure Tidy (placement : Placement n) : Prop where
  /-- Fresh rows are fresh. -/
  below : ∀ {node : Fin n} {cell : GridCell}, placement.cells.get node = some cell →
    cell.row < placement.nextRow
  apart : ∀ {node other : Fin n} {cell : GridCell}, placement.cells.get node = some cell →
    placement.cells.get other = some cell → node = other
  /-- A row ends with the node that no child has continued. -/
  ends : ∀ {node other : Fin n} {cell otherCell : GridCell},
    placement.cells.get node = some cell → placement.continued.get node = false →
    placement.cells.get other = some otherCell → otherCell.row = cell.row →
    otherCell.column ≤ cell.column

theorem tidy_empty (n : Nat) : (empty n).Tidy := by
  constructor <;> simp

variable {placement next : Placement n} {node : Fin n} {cell : GridCell}

/-- A new cell keeps the cells apart if it is right of all others on its row and
if the row cannot be continued elsewhere from then on. -/
theorem Tidy.extend (tidy : placement.Tidy) (puts : Puts placement next node cell)
    (rows : placement.nextRow ≤ next.nextRow) (below : cell.row < next.nextRow)
    (marks : ∀ other : Fin n, next.continued.get other = false →
      placement.continued.get other = false)
    (last : ∀ {other : Fin n} {otherCell : GridCell}, placement.cells.get other = some otherCell →
      otherCell.row = cell.row → otherCell.column < cell.column ∧ next.continued.get other = true) :
    next.Tidy := by
  constructor
  · intro other otherCell placed
    rcases puts.placed_cases placed with ⟨_, rfl⟩ | ⟨_, old⟩
    · exact below
    · exact Nat.lt_of_lt_of_le (tidy.below old) rows
  · intro first second shared firstPlaced secondPlaced
    rcases puts.placed_cases firstPlaced with ⟨rfl, rfl⟩ | ⟨_, oldFirst⟩
    · rcases puts.placed_cases secondPlaced with ⟨rfl, _⟩ | ⟨_, oldSecond⟩
      · rfl
      · exact absurd (last oldSecond rfl).1 (Nat.lt_irrefl _)
    · rcases puts.placed_cases secondPlaced with ⟨rfl, rfl⟩ | ⟨_, oldSecond⟩
      · exact absurd (last oldFirst rfl).1 (Nat.lt_irrefl _)
      · exact tidy.apart oldFirst oldSecond
  · intro first second firstCell secondCell firstPlaced opens secondPlaced sameRow
    rcases puts.placed_cases firstPlaced with ⟨rfl, rfl⟩ | ⟨_, oldFirst⟩
    · rcases puts.placed_cases secondPlaced with ⟨rfl, rfl⟩ | ⟨_, oldSecond⟩
      · exact Nat.le_refl _
      · exact Nat.le_of_lt (last oldSecond sameRow).1
    · rcases puts.placed_cases secondPlaced with ⟨rfl, rfl⟩ | ⟨_, oldSecond⟩
      · have closed := (last oldFirst sameRow.symm).2
        rw [opens] at closed
        cases closed
      · exact tidy.ends oldFirst (marks first opens) oldSecond sameRow

/-- A fresh row has room in every column. -/
theorem Tidy.extend_fresh (tidy : placement.Tidy) (puts : Puts placement next node cell)
    (row : cell.row = placement.nextRow) (rows : next.nextRow = placement.nextRow + 1)
    (marks : next.continued = placement.continued) : next.Tidy := by
  apply tidy.extend puts
  · omega
  · omega
  · exact fun _ opens => marks ▸ opens
  · intro other otherCell placed sameRow
    have earlier := tidy.below placed
    omega

/-- The row of a node that no child has continued has room after it. -/
theorem Tidy.extend_row (tidy : placement.Tidy) {parent : Fin n}
    (puts : Puts placement next node ⟨cell.column + 1, cell.row⟩)
    (placed : placement.cells.get parent = some cell)
    (opens : placement.continued.get parent = false) (rows : next.nextRow = placement.nextRow)
    (marks : ∀ other, next.continued.get other =
      if other = parent then true else placement.continued.get other) : next.Tidy := by
  apply tidy.extend puts
  · exact Nat.le_of_eq rows.symm
  · have below := tidy.below placed
    rw [rows]
    exact below
  · intro other
    rw [marks]
    split
    · exact nofun
    · exact id
  · intro other otherCell otherPlaced sameRow
    have before := tidy.ends placed opens otherPlaced sameRow
    refine ⟨Nat.lt_succ_of_le before, ?_⟩
    rw [marks]
    split
    · rfl
    · next different =>
        -- A second open end of the row would be in the parent's cell.
        by_contra closed
        have after := tidy.ends otherPlaced (Bool.eq_false_iff.mpr closed) placed sameRow.symm
        obtain rfl := GridCell.eq_of_lines_eq (Nat.le_antisymm before after) sameRow
        exact different (tidy.apart otherPlaced placed)

theorem Step.tidy (step : Step children placement next) (tidy : placement.Tidy) : next.Tidy := by
  obtain ⟨node, cell, puts, gives⟩ := step.gives
  cases gives with
  | root rows marks => exact tidy.extend_fresh puts rfl rows marks
  | branch _ _ _ rows marks => exact tidy.extend_fresh puts rfl rows marks
  | first _ placed unmarked rows marks => exact tidy.extend_row puts placed unmarked rows marks

theorem Grows.tidy (grows : Grows children placement next) (tidy : placement.Tidy) :
    next.Tidy := by
  induction grows with
  | refl => exact tidy
  | tail _ step ih => exact step.tidy ih

/-- What every step keeps, given that the cells are kept apart, is kept while
cells are given out. -/
theorem Grows.keeps {holds : Placement n → Prop}
    (keeps : ∀ {placement next : Placement n}, Step children placement next → placement.Tidy →
      holds placement → holds next)
    (grows : Grows children placement next) (tidy : placement.Tidy) (start : holds placement) :
    holds next := by
  induction grows with
  | refl => exact start
  | tail before step ih =>
    exact keeps step (Grows.tidy before tidy) ih

theorem toList_eq (placement : Placement n) :
    placement.toList = (List.finRange n).map fun node => (placement.cells.get node).getD default := by
  apply List.ext_getElem
  · simp [toList]
  · intro index inside _
    simp only [toList, List.getElem_map, Vector.getElem_toList, List.getElem_finRange]
    rfl

end Placement

namespace LinkGraph

variable {n : Nat}

/-- The nodes that a node leads to, those that lead further first. -/
def children (graph : LinkGraph n) (node : Fin n) : List (Fin n) :=
  byDegree graph.outDegree (graph.targets node)

/-- The cells of all nodes, once all are given out. -/
def placement (graph : LinkGraph n) : Placement n :=
  let roots := byDegree graph.outDegree ((List.finRange n).filter graph.isRoot)
  (List.finRange n).foldl .fill (roots.foldl (.growRoot graph.children) (.empty n))

section

variable (graph : LinkGraph n)

theorem grid_eq : graph.grid = graph.placement.toList := by
  simp only [grid, placement, Fin.getElem_fin, Vector.getElem_ofFn]
  rfl

theorem grows_placement : Placement.Grows graph.children (.empty n) graph.placement :=
  (Placement.grows_foldl Placement.grows_growRoot _ _).trans
    (Placement.grows_foldl Placement.grows_fill _ _)

theorem tidy_placement : graph.placement.Tidy :=
  graph.grows_placement.tidy (Placement.tidy_empty n)

/-- What every step keeps holds once all cells are given out. -/
theorem placement_keeps (holds : Placement n → Prop)
    (keeps : ∀ {placement next : Placement n}, Placement.Step graph.children placement next →
      placement.Tidy → holds placement → holds next) (start : holds (.empty n)) :
    holds graph.placement :=
  graph.grows_placement.keeps keeps (Placement.tidy_empty n) start

theorem exists_cell (node : Fin n) : ∃ cell, graph.placement.cells.get node = some cell :=
  Placement.exists_cell_foldl_fill (List.mem_finRange node) _

/-- No two nodes share a cell. -/
theorem nodup_grid : graph.grid.Nodup := by
  rw [grid_eq, Placement.toList_eq]
  refine List.Nodup.map_on ?_ (List.nodup_finRange n)
  intro first _ second _ same
  obtain ⟨cell, firstPlaced⟩ := graph.exists_cell first
  obtain ⟨other, secondPlaced⟩ := graph.exists_cell second
  rw [firstPlaced, secondPlaced] at same
  obtain rfl : cell = other := same
  exact graph.tidy_placement.apart firstPlaced secondPlaced

end

end LinkGraph

end CodeAtlas
