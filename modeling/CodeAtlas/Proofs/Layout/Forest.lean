import CodeAtlas.Proofs.Layout.DepthFirst

/-!
# The grid is a forest

Every node outside the first column was placed as the child of a node one column
to the left.  A node that has such children shares its row with exactly one of
them, the first one placed, and the others open rows.  The first column holds the
nodes that nothing leads to, and those that no such node leads to.
-/

namespace CodeAtlas

/-- Cells of nodes are a forest along links: nodes outside the first column have
a parent one column to the left. -/
structure IsForest {V : Type} (link : V → V → Prop) (cell : V → GridCell) (parent : V → V) :
    Prop where
  /-- The first column holds the roots and what no root leads to. -/
  first : ∀ node, (cell node).column = 0 ↔ (∀ source, ¬ link source node) ∨
    ¬ ∃ root, (∀ source, ¬ link source root) ∧ Relation.ReflTransGen link root node
  linked : ∀ node, (cell node).column ≠ 0 → link (parent node) node
  next : ∀ node, (cell node).column ≠ 0 → (cell node).column = (cell (parent node)).column + 1
  /-- A node stays on the row of its parent or starts a row. -/
  row : ∀ node, (cell node).column ≠ 0 → (cell node).row = (cell (parent node)).row ∨
    ∀ other, (cell other).row = (cell node).row → (cell node).column ≤ (cell other).column
  /-- Of the children of a node exactly one stays on its row. -/
  heir : ∀ node, (cell node).column ≠ 0 → ∃! child, (cell child).column ≠ 0 ∧
    parent child = parent node ∧ (cell child).row = (cell (parent node)).row

/-! ## Parents -/

namespace Placement

variable {n : Nat} {children : Fin n → List (Fin n)} {parent origin : Fin n → Fin n}
  {placement next : Placement n}

/-- A child that stays on the row of its parent. -/
def IsHeir (parent : Fin n → Fin n) (placement : Placement n) (node child : Fin n) : Prop :=
  parent child = node ∧ ∃ cell childCell, placement.cells.get node = some cell ∧
    placement.cells.get child = some childCell ∧ childCell.column ≠ 0 ∧ childCell.row = cell.row

/-- The placed nodes hang on their parents, and the marks tell which parents have
an heir. -/
structure Hangs (children : Fin n → List (Fin n)) (parent : Fin n → Fin n)
    (placement : Placement n) : Prop where
  linked : ∀ {node : Fin n} {cell : GridCell}, placement.cells.get node = some cell →
    cell.column ≠ 0 → node ∈ children (parent node)
  next : ∀ {node : Fin n} {cell : GridCell}, placement.cells.get node = some cell →
    cell.column ≠ 0 → ∃ parentCell, placement.cells.get (parent node) = some parentCell ∧
      cell.column = parentCell.column + 1 ∧ (cell.row = parentCell.row ∨
        ∀ {other : Fin n} {otherCell : GridCell}, placement.cells.get other = some otherCell →
          otherCell.row = cell.row → cell.column ≤ otherCell.column)
  marked : ∀ {node : Fin n} {cell : GridCell}, placement.cells.get node = some cell →
    cell.column ≠ 0 → placement.continued.get (parent node) = true
  heir : ∀ {node : Fin n}, placement.continued.get node = true →
    ∃! child, placement.IsHeir parent node child

theorem hangs_empty (children : Fin n → List (Fin n)) (parent : Fin n → Fin n) :
    (empty n).Hangs children parent := by
  constructor <;> simp

section Extend

variable {node : Fin n} {cell : GridCell} (puts : Puts placement next node cell)
  (old : ∀ other, other ≠ node → origin other = parent other)
include puts old

/-- A new node changes nothing about who else is an heir. -/
theorem Hangs.isHeir_iff (hangs : placement.Hangs children parent) {other child : Fin n}
    (different : child ≠ node) :
    next.IsHeir origin other child ↔ placement.IsHeir parent other child := by
  unfold IsHeir
  rw [old child different, puts.cells child, if_neg different]
  constructor
  · rintro ⟨rfl, otherCell, childCell, otherPlaced, childPlaced, column, row⟩
    obtain ⟨parentCell, parentPlaced, _⟩ := hangs.next childPlaced column
    cases (puts.kept parentPlaced).symm.trans otherPlaced
    exact ⟨rfl, otherCell, childCell, parentPlaced, childPlaced, column, row⟩
  · rintro ⟨same, otherCell, childCell, otherPlaced, rest⟩
    exact ⟨same, otherCell, childCell, puts.kept otherPlaced, rest⟩

/-- So a node keeps its one heir if the new node is no other one. -/
theorem Hangs.heir_of_not_isHeir (hangs : placement.Hangs children parent) {other : Fin n}
    (mark : placement.continued.get other = true) (noHeir : ¬ next.IsHeir origin other node) :
    ∃! child, next.IsHeir origin other child := by
  obtain ⟨child, isHeir, unique⟩ := hangs.heir mark
  have different : child ≠ node := by
    obtain ⟨_, _, _, _, placed, _⟩ := isHeir
    exact puts.ne_of_placed placed
  refine ⟨child, (hangs.isHeir_iff puts old different).mpr isHeir, ?_⟩
  intro second secondHeir
  by_cases new : second = node
  · exact absurd (new ▸ secondHeir) noHeir
  · exact unique second ((hangs.isHeir_iff puts old new).mp secondHeir)

/-- A new cell at the end of its row hangs on a parent if its own place and the
heirs are in order. -/
theorem Hangs.extend (hangs : placement.Hangs children parent)
    (last : ∀ {other : Fin n} {otherCell : GridCell}, placement.cells.get other = some otherCell →
      otherCell.row = cell.row → otherCell.column < cell.column)
    (marks : ∀ {other : Fin n}, placement.continued.get other = true →
      next.continued.get other = true)
    (own : cell.column ≠ 0 → node ∈ children (origin node) ∧
      next.continued.get (origin node) = true ∧
      ∃ originCell, placement.cells.get (origin node) = some originCell ∧
        cell.column = originCell.column + 1 ∧ (cell.row = originCell.row ∨
          ∀ {other : Fin n} {otherCell : GridCell},
            placement.cells.get other = some otherCell → otherCell.row ≠ cell.row))
    (heir : ∀ {other : Fin n}, next.continued.get other = true →
      ∃! child, next.IsHeir origin other child) :
    next.Hangs children origin := by
  constructor
  · intro other otherCell placed column
    rcases puts.placed_cases placed with ⟨rfl, rfl⟩ | ⟨different, oldPlaced⟩
    · exact (own column).1
    · rw [old other different]
      exact hangs.linked oldPlaced column
  · intro other otherCell placed column
    rcases puts.placed_cases placed with ⟨rfl, rfl⟩ | ⟨different, oldPlaced⟩
    · obtain ⟨_, _, originCell, originPlaced, nextColumn, row⟩ := own column
      refine ⟨originCell, puts.kept originPlaced, nextColumn, row.imp_right ?_⟩
      intro alone third thirdCell thirdPlaced sameRow
      rcases puts.placed_cases thirdPlaced with ⟨_, rfl⟩ | ⟨_, oldThird⟩
      · exact Nat.le_refl _
      · exact absurd sameRow (alone oldThird)
    · obtain ⟨parentCell, parentPlaced, nextColumn, row⟩ := hangs.next oldPlaced column
      rw [old other different]
      refine ⟨parentCell, puts.kept parentPlaced, nextColumn, row.imp_right ?_⟩
      intro leftmost third thirdCell thirdPlaced sameRow
      rcases puts.placed_cases thirdPlaced with ⟨_, rfl⟩ | ⟨_, oldThird⟩
      · exact Nat.le_of_lt (last oldPlaced sameRow.symm)
      · exact leftmost oldThird sameRow
  · intro other otherCell placed column
    rcases puts.placed_cases placed with ⟨rfl, rfl⟩ | ⟨different, oldPlaced⟩
    · exact (own column).2.1
    · rw [old other different]
      exact marks (hangs.marked oldPlaced column)
  · exact heir

end Extend

theorem Step.hangs (step : Step children placement next) (tidy : placement.Tidy)
    (hangs : placement.Hangs children parent) : ∃ origin, next.Hangs children origin := by
  obtain ⟨node, cell, puts, gives⟩ := step.gives
  have fresh : ∀ {other : Fin n} {otherCell : GridCell},
      placement.cells.get other = some otherCell → otherCell.row ≠ placement.nextRow :=
    fun placed => Nat.ne_of_lt (tidy.below placed)
  have old : ∀ {before : Fin n} other, other ≠ node →
      Function.update parent node before other = parent other :=
    fun other different => Function.update_of_ne different _ _
  have new : ∀ {before : Fin n}, Function.update parent node before node = before :=
    Function.update_self _ _ _
  cases gives with
  | root _ marks =>
    refine ⟨parent, hangs.extend puts (fun _ _ => rfl) ?_ ?_ ?_ ?_⟩
    · exact fun placed sameRow => absurd sameRow (fresh placed)
    · exact fun mark => marks ▸ mark
    · exact fun column => absurd rfl column
    · intro other mark
      apply hangs.heir_of_not_isHeir puts (fun _ _ => rfl) (marks ▸ mark)
      rintro ⟨_, _, _, _, placed, column, _⟩
      cases puts.own.symm.trans placed
      exact column rfl
  | @branch before beforeCell linked placed marked _ marks =>
    refine ⟨Function.update parent node before, hangs.extend puts old ?_ ?_ ?_ ?_⟩
    · exact fun placed sameRow => absurd sameRow (fresh placed)
    · exact fun mark => marks ▸ mark
    · intro _
      rw [new, marks]
      exact ⟨linked, marked, beforeCell, placed, rfl, Or.inr fresh⟩
    · intro other mark
      apply hangs.heir_of_not_isHeir puts old (marks ▸ mark)
      -- The new row is not that of the parent.
      rintro ⟨same, otherCell, _, otherPlaced, nodePlaced, _, row⟩
      cases puts.own.symm.trans nodePlaced
      rw [new] at same
      subst same
      cases (puts.kept placed).symm.trans otherPlaced
      exact fresh placed row.symm
  | @first before beforeCell linked placed unmarked _ marks =>
    have marked : next.continued.get before = true := by rw [marks, if_pos rfl]
    refine ⟨Function.update parent node before, hangs.extend puts old ?_ ?_ ?_ ?_⟩
    · exact fun otherPlaced sameRow =>
        Nat.lt_succ_of_le (tidy.ends placed unmarked otherPlaced sameRow)
    · intro other mark
      rw [marks]
      split
      · rfl
      · exact mark
    · intro _
      rw [new]
      exact ⟨linked, marked, beforeCell, placed, rfl, Or.inl rfl⟩
    · intro other mark
      by_cases same : other = before
      · subst same
        refine ⟨node, ⟨new, beforeCell, _, puts.kept placed, puts.own, Nat.succ_ne_zero _, rfl⟩, ?_⟩
        -- A second heir would have marked the parent before.
        intro second secondHeir
        by_contra different
        obtain ⟨isParent, _, _, _, secondPlaced, column, _⟩ :=
          (hangs.isHeir_iff puts old different).mp secondHeir
        have mark := hangs.marked secondPlaced column
        rw [isParent, unmarked] at mark
        cases mark
      · rw [marks, if_neg same] at mark
        apply hangs.heir_of_not_isHeir puts old mark
        rintro ⟨isParent, _⟩
        exact same (isParent.symm.trans new)

end Placement

/-! ## What roots lead to -/

namespace Chart

variable {n : Nat} {children : Fin n → List (Fin n)}

/-- Nodes lead to their children, to the children of these, and so on. -/
abbrev Leads (children : Fin n → List (Fin n)) : Fin n → Fin n → Prop :=
  Relation.ReflTransGen fun node child => child ∈ children node

theorem explore_ne_none (children : Fin n → List (Fin n)) (cell : GridCell) (continued : Bool)
    (todo : List (Fin n)) {chart : Chart n} {node : Fin n} (placed : chart.cells node ≠ none) :
    (explore children cell continued todo chart).cells node ≠ none := by
  obtain ⟨given, found⟩ := Option.ne_none_iff_exists'.mp placed
  rw [cells_explore_of_some children cell continued todo chart found]
  exact Option.some_ne_none given

/-- Every child that is explored gets a cell. -/
theorem explore_ne_none_of_mem (children : Fin n → List (Fin n)) (cell : GridCell)
    (continued : Bool) (todo : List (Fin n)) (chart : Chart n) {child : Fin n}
    (mem : child ∈ todo) : (explore children cell continued todo chart).cells child ≠ none := by
  induction cell, continued, todo, chart using explore_induction children with
  | nil => cases mem
  | placed cell continued first rest chart occupied ih =>
    rw [explore_cons_of_placed _ _ _ occupied]
    rcases List.mem_cons.mp mem with rfl | later
    · exact explore_ne_none children cell continued rest occupied
    · exact ih later
  | free cell continued first rest chart unplaced _ after =>
    rw [explore_cons_of_free _ _ _ unplaced]
    rcases List.mem_cons.mp mem with rfl | later
    · apply explore_ne_none
      apply explore_ne_none
      simp
    · exact after later

/-- A node that gets a cell is right of the first column, and a child that was
explored leads to it. -/
theorem leads_of_explore (cell : GridCell) (continued : Bool) (todo : List (Fin n))
    (chart : Chart n) {node : Fin n} {given : GridCell} (unplaced : chart.cells node = none)
    (placed : (explore children cell continued todo chart).cells node = some given) :
    given.column ≠ 0 ∧ ∃ child ∈ todo, Leads children child node := by
  induction cell, continued, todo, chart using explore_induction children with
  | nil cell continued chart =>
    rw [explore_nil, unplaced] at placed
    cases placed
  | placed cell continued child rest chart occupied ih =>
    rw [explore_cons_of_placed _ _ _ occupied] at placed
    obtain ⟨column, other, mem, leads⟩ := ih unplaced placed
    exact ⟨column, other, List.mem_cons_of_mem _ mem, leads⟩
  | free cell continued child rest chart free below after =>
    rw [explore_cons_of_free _ _ _ free] at placed
    cases found : (explore children (chart.childCell cell continued) false
        (children child).reverse (chart.putChild child cell continued)).cells node with
    | none =>
      obtain ⟨column, other, mem, leads⟩ := after found placed
      exact ⟨column, other, List.mem_cons_of_mem _ mem, leads⟩
    | some early =>
      rw [cells_explore_of_some _ _ _ _ _ found] at placed
      cases placed
      by_cases same : node = child
      · have own : (chart.putChild child cell continued).cells node =
            some (chart.childCell cell continued) := by rw [cells_putChild, if_pos same]
        rw [cells_explore_of_some _ _ _ _ _ own] at found
        cases found
        exact ⟨Nat.succ_ne_zero _, child, List.mem_cons_self, same ▸ .refl⟩
      · have still : (chart.putChild child cell continued).cells node = none := by
          rw [cells_putChild, if_neg same, unplaced]
        obtain ⟨column, other, mem, leads⟩ := below still found
        exact ⟨column, child, List.mem_cons_self, .head (List.mem_reverse.mp mem) leads⟩

/-- The children of a node that gets a cell get cells too. -/
theorem closed_of_explore (cell : GridCell) (continued : Bool) (todo : List (Fin n))
    (chart : Chart n) {node child : Fin n} (unplaced : chart.cells node = none)
    (placed : (explore children cell continued todo chart).cells node ≠ none)
    (linked : child ∈ children node) :
    (explore children cell continued todo chart).cells child ≠ none := by
  induction cell, continued, todo, chart using explore_induction children with
  | nil cell continued chart =>
    rw [explore_nil] at placed
    exact absurd unplaced placed
  | placed cell continued first rest chart occupied ih =>
    rw [explore_cons_of_placed _ _ _ occupied] at placed ⊢
    exact ih unplaced placed
  | free cell continued first rest chart free below after =>
    rw [explore_cons_of_free _ _ _ free] at placed ⊢
    by_cases early : (explore children (chart.childCell cell continued) false
        (children first).reverse (chart.putChild first cell continued)).cells node = none
    · exact after early placed
    · apply explore_ne_none
      by_cases same : node = first
      · subst same
        exact explore_ne_none_of_mem _ _ _ _ _ (List.mem_reverse.mpr linked)
      · apply below _ early
        rw [cells_putChild, if_neg same, unplaced]

/-- The nodes with cells are some roots and all that these lead to. -/
structure Grown (children : Fin n → List (Fin n)) (isRoot : Fin n → Prop) (chart : Chart n) :
    Prop where
  start : ∀ {node : Fin n} {cell : GridCell}, chart.cells node = some cell → cell.column = 0 →
    isRoot node
  led : ∀ {node : Fin n}, chart.cells node ≠ none → ∃ root, isRoot root ∧ Leads children root node
  closed : ∀ {node child : Fin n}, chart.cells node ≠ none → child ∈ children node →
    chart.cells child ≠ none

theorem grown_empty (children : Fin n → List (Fin n)) (isRoot : Fin n → Prop) :
    (empty n).Grown children isRoot :=
  ⟨nofun, absurd rfl, absurd rfl⟩

theorem growRoot_ne_none {chart : Chart n} {node : Fin n} (root : Fin n)
    (placed : chart.cells node ≠ none ∨ node = root) :
    (growRoot children chart root).cells node ≠ none := by
  apply explore_ne_none
  rw [cells_putRoot]
  split
  · exact Option.some_ne_none _
  · next different => exact placed.resolve_right different

theorem Grown.growRoot {isRoot : Fin n → Prop} {chart : Chart n}
    (grown : chart.Grown children isRoot) {root : Fin n} (start : isRoot root) :
    (chart.growRoot children root).Grown children isRoot := by
  have kept : ∀ {node : Fin n} {cell : GridCell}, (chart.putRoot root).cells node = some cell →
      (chart.growRoot children root).cells node = some cell :=
    cells_explore_of_some _ _ _ _ _
  have known : ∀ {node : Fin n} {cell : GridCell}, (chart.putRoot root).cells node = some cell →
      node = root ∨ chart.cells node = some cell := by
    intro node cell placed
    rw [cells_putRoot] at placed
    split at placed
    · next same => exact Or.inl same
    · exact Or.inr placed
  constructor
  · intro node cell placed column
    cases before : (chart.putRoot root).cells node with
    | none => exact absurd column (leads_of_explore _ _ _ _ before placed).1
    | some given =>
      cases (kept before).symm.trans placed
      rcases known before with rfl | old
      · exact start
      · exact grown.start old column
  · intro node placed
    cases before : (chart.putRoot root).cells node with
    | none =>
      obtain ⟨cell, found⟩ := Option.ne_none_iff_exists'.mp placed
      obtain ⟨_, child, mem, leads⟩ := leads_of_explore _ _ _ _ before found
      exact ⟨root, start, .head (List.mem_reverse.mp mem) leads⟩
    | some given =>
      rcases known before with rfl | old
      · exact ⟨node, start, .refl⟩
      · exact grown.led (by simp [old])
  · intro node child placed linked
    cases before : (chart.putRoot root).cells node with
    | none => exact closed_of_explore _ _ _ _ before placed linked
    | some given =>
      rcases known before with rfl | old
      · exact explore_ne_none_of_mem _ _ _ _ _ (List.mem_reverse.mpr linked)
      · exact growRoot_ne_none root (Or.inl (grown.closed (by simp [old]) linked))

/-- Roots have cells once they have been grown. -/
theorem Grown.growRoots {isRoot : Fin n → Prop} {chart : Chart n}
    (grown : chart.Grown children isRoot) {roots : List (Fin n)}
    (starts : ∀ root ∈ roots, isRoot root) :
    (roots.foldl (Chart.growRoot children) chart).Grown children isRoot ∧
      ∀ node, chart.cells node ≠ none ∨ node ∈ roots →
        (roots.foldl (Chart.growRoot children) chart).cells node ≠ none := by
  induction roots generalizing chart with
  | nil => exact ⟨grown, fun node placed => placed.resolve_right List.not_mem_nil⟩
  | cons root rest ih =>
    obtain ⟨grownRest, placedRest⟩ :=
      ih (grown.growRoot (starts root List.mem_cons_self))
        fun other mem => starts other (List.mem_cons_of_mem _ mem)
    refine ⟨grownRest, fun node placed => placedRest node ?_⟩
    rw [List.mem_cons, ← or_assoc] at placed
    exact placed.imp_left (growRoot_ne_none root)

/-- Where all roots have cells, exactly what roots lead to has a cell. -/
theorem Grown.ne_none_iff {isRoot : Fin n → Prop} {chart : Chart n}
    (grown : chart.Grown children isRoot) (roots : ∀ root, isRoot root → chart.cells root ≠ none)
    (node : Fin n) : chart.cells node ≠ none ↔ ∃ root, isRoot root ∧ Leads children root node := by
  constructor
  · exact grown.led
  · rintro ⟨root, start, leads⟩
    induction leads with
    | refl => exact roots root start
    | tail _ linked ih => exact grown.closed ih linked

/-- What is placed last goes to the first column. -/
theorem foldl_fill_cases {nodes : List (Fin n)} {chart : Chart n} {node : Fin n}
    {cell : GridCell} (placed : (nodes.foldl fill chart).cells node = some cell) :
    chart.cells node = some cell ∨ chart.cells node = none ∧ cell.column = 0 := by
  induction nodes generalizing chart with
  | nil => exact Or.inl placed
  | cons first rest ih =>
    have later := ih placed
    unfold fill at later
    by_cases free : chart.cells first = none
    · rw [if_pos free, cells_putRoot] at later
      by_cases same : node = first
      · subst same
        right
        simp only [if_true, Option.some.injEq, reduceCtorEq, false_and, or_false] at later
        exact ⟨free, later ▸ rfl⟩
      · rwa [if_neg same] at later
    · rwa [if_neg free] at later

/-- Before the rest is filled in, the first column holds the roots. -/
theorem Grown.column_eq_zero_iff {isRoot : Fin n → Prop} {chart : Chart n}
    (grown : chart.Grown children isRoot) (roots : ∀ root, isRoot root → chart.cells root ≠ none)
    {nodes : List (Fin n)} {node : Fin n} {cell : GridCell}
    (placed : (nodes.foldl fill chart).cells node = some cell)
    (left : isRoot node → cell.column = 0) :
    cell.column = 0 ↔ isRoot node ∨ ¬ ∃ root, isRoot root ∧ Leads children root node := by
  rw [← grown.ne_none_iff roots]
  constructor
  · intro column
    rcases foldl_fill_cases placed with early | ⟨late, _⟩
    · exact Or.inl (grown.start early column)
    · exact Or.inr (not_not.mpr late)
  · rintro (start | late)
    · exact left start
    · rcases foldl_fill_cases placed with early | ⟨_, column⟩
      · exact absurd (by simp [early]) late
      · exact column

/-! ### Calls -/

theorem mem_ranked_callees {calls : List (Fin n × Fin n)} {node child : Fin n} :
    child ∈ ranked calls (callees calls node) ↔ (node, child) ∈ calls := by
  rw [ranked, List.mem_insertionSort, callees, List.mem_map]
  constructor
  · rintro ⟨⟨_, _⟩, mem, rfl⟩
    obtain ⟨called, caller⟩ := List.mem_filter.mp mem
    rwa [← of_decide_eq_true caller]
  · intro mem
    exact ⟨(node, child), List.mem_filter.mpr ⟨mem, decide_eq_true rfl⟩, rfl⟩

theorem column_ofCalls_eq_zero_iff {calls : List (Fin n × Fin n)} {node : Fin n} {cell : GridCell}
    (placed : (ofCalls calls).cells node = some cell)
    (left : (∀ source, (source, node) ∉ calls) → cell.column = 0) :
    cell.column = 0 ↔ (∀ source, (source, node) ∉ calls) ∨
      ¬ ∃ root, (∀ source, (source, root) ∉ calls) ∧
        Relation.ReflTransGen (fun source target => (source, target) ∈ calls) root node := by
  have links : (fun source target => (source, target) ∈ calls) =
      fun node child => child ∈ ranked calls (callees calls node) := by
    funext source target
    exact propext mem_ranked_callees.symm
  have isRoot : ∀ {root : Fin n}, root ∈ ranked calls
      ((List.finRange n).filter fun node => node ∉ calls.map Prod.snd) ↔
        ∀ source, (source, root) ∉ calls := by
    intro root
    rw [ranked, List.mem_insertionSort, List.mem_filter]
    simp
  obtain ⟨grown, roots⟩ := (grown_empty (fun node => ranked calls (callees calls node))
    fun root => ∀ source, (source, root) ∉ calls).growRoots fun root mem => isRoot.mp mem
  rw [links]
  exact grown.column_eq_zero_iff (fun root start => roots root (Or.inr (isRoot.mpr start)))
    placed left

end Chart

/-! ## The forest -/

namespace LinkGraph

variable {n : Nat}

theorem mem_children_iff {graph : LinkGraph n} {node child : Fin n} :
    child ∈ graph.children node ↔ (node, child) ∈ graph.links := by
  rw [children_eq_ranked]
  exact Chart.mem_ranked_callees

/-- The grid of a graph is a forest along its links. -/
theorem exists_isForest (graph : LinkGraph n) :
    ∃ cell parent, graph.grid = (List.finRange n).map cell ∧
      IsForest (fun source target => (source, target) ∈ graph.links) cell parent := by
  obtain ⟨parent, hangs⟩ : ∃ parent, graph.placement.Hangs graph.children parent :=
    graph.placement_keeps (fun placement => ∃ parent, placement.Hangs graph.children parent)
      (fun step tidy ⟨_, hangs⟩ => step.hangs tidy hangs)
      ⟨id, Placement.hangs_empty graph.children id⟩
  let cell : Fin n → GridCell := fun node => (graph.placement.cells.get node).getD default
  have placed : ∀ node, graph.placement.cells.get node = some (cell node) := by
    intro node
    obtain ⟨given, found⟩ := graph.exists_cell node
    simp only [cell, found, Option.getD_some]
  have linked : ∀ node, (cell node).column ≠ 0 → (parent node, node) ∈ graph.links :=
    fun node column => mem_children_iff.mp (hangs.linked (placed node) column)
  have next : ∀ node, (cell node).column ≠ 0 →
      (cell node).column = (cell (parent node)).column + 1 ∧
        ((cell node).row = (cell (parent node)).row ∨
          ∀ other, (cell other).row = (cell node).row →
            (cell node).column ≤ (cell other).column) := by
    intro node column
    obtain ⟨parentCell, parentPlaced, nextColumn, row⟩ := hangs.next (placed node) column
    cases (placed (parent node)).symm.trans parentPlaced
    exact ⟨nextColumn, row.imp_right fun leftmost other => leftmost (placed other)⟩
  refine ⟨cell, parent, by rw [grid_eq, Placement.toList_eq], ?_⟩
  constructor
  · intro node
    apply Chart.column_ofCalls_eq_zero_iff
    · rw [← graph.agrees_placement.cells, placed]
    · intro start
      by_contra column
      exact start _ (linked node column)
  · exact linked
  · exact fun node column => (next node column).1
  · exact fun node column => (next node column).2
  · intro node column
    refine (existsUnique_congr fun child => ?_).mp (hangs.heir (hangs.marked (placed node) column))
    simp only [Placement.IsHeir, placed, Option.some.injEq, exists_and_left, exists_eq_left']
    tauto

end LinkGraph

/-! ## Edges -/

/-- An edge that the tree follows leads from one box to another; boxes are
numbered as their ids are listed. -/
def Follows (ids : List NodeId) (edges : List LayoutEdge) (source target : Fin ids.length) :
    Prop :=
  source ≠ target ∧ ∃ edge ∈ edges, edge.kind.isCallLike = true ∧
    edge.source = ids.get source ∧ edge.target = ids.get target

theorem get_of_lastIndex? {ids : List NodeId} {id : NodeId} {index : Fin ids.length}
    (found : lastIndex? ids id = some index) : ids.get index = id := by
  unfold lastIndex? at found
  have passed := List.find?_some found
  exact eq_of_beq passed

theorem lastIndex?_eq_some_iff {ids : List NodeId} (distinct : ids.Nodup) {id : NodeId}
    {index : Fin ids.length} : lastIndex? ids id = some index ↔ id = ids.get index := by
  constructor
  · exact fun found => (get_of_lastIndex? found).symm
  · rintro rfl
    cases found : lastIndex? ids (ids.get index) with
    | none =>
      have missing := List.find?_eq_none.mp found index (by simp)
      exact absurd (beq_self_eq_true _) missing
    | some other => rw [distinct.injective_get (get_of_lastIndex? found)]

theorem LayoutEdge.link?_eq_some_iff {ids : List NodeId} {edge : LayoutEdge}
    {link : Fin ids.length × Fin ids.length} :
    edge.link? ids = some link ↔ edge.kind.isCallLike = true ∧
      lastIndex? ids edge.source = some link.1 ∧ lastIndex? ids edge.target = some link.2 ∧
      link.1 ≠ link.2 := by
  unfold link?
  cases lastIndex? ids edge.source with
  | none => simp
  | some source =>
    cases lastIndex? ids edge.target with
    | none => simp
    | some target =>
      rcases link with ⟨first, second⟩
      simp only [Option.ite_none_left_eq_some, Option.ite_none_right_eq_some,
        Option.some.injEq, Prod.mk.injEq]
      constructor
      · rintro ⟨followed, different, rfl, rfl⟩
        exact ⟨followed, rfl, rfl, different⟩
      · rintro ⟨followed, rfl, rfl, different⟩
        exact ⟨followed, different, rfl, rfl⟩

theorem mem_links_linkGraph_iff {ids : List NodeId} (distinct : ids.Nodup)
    {edges : List LayoutEdge} {source target : Fin ids.length} :
    (source, target) ∈ (linkGraph ids edges).links ↔ Follows ids edges source target := by
  rw [linkGraph, List.mem_eraseDups, List.mem_filterMap, Follows]
  simp only [LayoutEdge.link?_eq_some_iff, lastIndex?_eq_some_iff distinct]
  constructor
  · rintro ⟨edge, mem, followed, sourceId, targetId, different⟩
    exact ⟨different, edge, mem, followed, sourceId, targetId⟩
  · rintro ⟨different, edge, mem, followed, sourceId, targetId⟩
    exact ⟨edge, mem, followed, sourceId, targetId, different⟩

/-- For all nodes with different ids and all edges, the grid is a forest along
the edges that the tree follows. -/
theorem grid_isForest {R : Type} (nodes : List (LayoutNode R)) (edges : List LayoutEdge)
    (distinct : (nodes.map LayoutNode.id).Nodup) :
    ∃ cell parent, TreeLayouter.grid nodes edges =
        (List.finRange (nodes.map LayoutNode.id).length).map cell ∧
      IsForest (Follows (nodes.map LayoutNode.id) edges) cell parent := by
  have links : Follows (nodes.map LayoutNode.id) edges = fun source target =>
      (source, target) ∈ (linkGraph (nodes.map LayoutNode.id) edges).links := by
    funext source target
    exact propext (mem_links_linkGraph_iff distinct).symm
  rw [links]
  exact LinkGraph.exists_isForest _

/-- A call of two boxes that lead to the same one, two boxes that lead to each
other only, and edges that the tree does not follow. -/
theorem grid_isForest_sample :
    let nodes : List (LayoutNode Float32) :=
      [⟨"start", 100.0, 40.0⟩, ⟨"left", 60.0, 80.0⟩, ⟨"right", 60.0, 40.0⟩, ⟨"end", 80.0, 40.0⟩,
        ⟨"ping", 40.0, 40.0⟩, ⟨"pong", 40.0, 40.0⟩]
    let edges : List LayoutEdge :=
      [⟨"start", "left", .calls⟩, ⟨"start", "right", .calls⟩, ⟨"left", "end", .calls⟩,
        ⟨"right", "end", .sendsTo⟩, ⟨"ping", "pong", .calls⟩, ⟨"pong", "ping", .calls⟩,
        ⟨"start", "start", .calls⟩, ⟨"end", "start", .imports⟩, ⟨"end", "nowhere", .calls⟩]
    (nodes.map LayoutNode.id).Nodup ∧
    ∃ cell parent, TreeLayouter.grid nodes edges =
        (List.finRange (nodes.map LayoutNode.id).length).map cell ∧
      IsForest (Follows (nodes.map LayoutNode.id) edges) cell parent := by
  intro nodes edges
  have distinct : (nodes.map LayoutNode.id).Nodup := by decide
  exact ⟨distinct, grid_isForest nodes edges distinct⟩

end CodeAtlas
