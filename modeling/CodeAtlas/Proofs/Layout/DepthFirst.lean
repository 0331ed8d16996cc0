import CodeAtlas.Layout.Tree
import CodeAtlas.Proofs.Layout.Grid
import Mathlib.Data.Fintype.Card
import Mathlib.Data.List.Sort

/-!
# The grid by recursion

The grid of a call tree is found with a stack, on which a node may wait several
times, under different parents, and marks tell whose row has been continued.
The same cells come from a plain recursion without stack and marks: explore the
children of a node one after the other, each one with all that it leads to.

What ties the two together is said for the children of one node on top of a
stack: taking them off amounts to the recursion over them, whatever waits below.
-/

namespace CodeAtlas

/-! ## The recursion -/

/-- Cells of nodes, and the number of rows in use. -/
structure Chart (n : Nat) where
  cells : Fin n → Option GridCell
  rows : Nat

namespace Chart

variable {n : Nat}

def empty (n : Nat) : Chart n :=
  ⟨fun _ => none, 0⟩

/-- The number of nodes without a cell. -/
def free (chart : Chart n) : Nat :=
  (Finset.univ.filter fun node => chart.cells node = none).card

/-- Gives a node the first cell of a fresh row. -/
def putRoot (chart : Chart n) (node : Fin n) : Chart n :=
  ⟨Function.update chart.cells node (some ⟨0, chart.rows⟩), chart.rows + 1⟩

/-- The cell for the next child of a node: on the row of the node, or on a fresh
one if a child has continued that row. -/
def childCell (chart : Chart n) (cell : GridCell) (continued : Bool) : GridCell :=
  ⟨cell.column + 1, if continued then chart.rows else cell.row⟩

/-- Gives a child its cell. -/
def putChild (chart : Chart n) (child : Fin n) (cell : GridCell) (continued : Bool) : Chart n :=
  ⟨Function.update chart.cells child (some (chart.childCell cell continued)),
    if continued then chart.rows + 1 else chart.rows⟩

@[simp]
theorem cells_putRoot (chart : Chart n) (node other : Fin n) :
    (chart.putRoot node).cells other =
      if other = node then some ⟨0, chart.rows⟩ else chart.cells other :=
  Function.update_apply _ _ _ _

@[simp]
theorem cells_putChild (chart : Chart n) (child other : Fin n) (cell : GridCell)
    (continued : Bool) :
    (chart.putChild child cell continued).cells other =
      if other = child then some (chart.childCell cell continued) else chart.cells other :=
  Function.update_apply _ _ _ _

theorem free_putChild_lt {chart : Chart n} {child : Fin n} (unplaced : chart.cells child = none)
    (cell : GridCell) (continued : Bool) :
    (chart.putChild child cell continued).free < chart.free := by
  apply Finset.card_lt_card
  rw [Finset.ssubset_iff_of_subset]
  · exact ⟨child, by simpa using unplaced, by simp⟩
  · intro node
    by_cases same : node = child
    · simp [same]
    · simp [same]

/-- Explores children of a node, which has the given cell, one after the other.
The number of nodes without a cell never grows. -/
def exploreWithin (children : Fin n → List (Fin n)) (cell : GridCell) (continued : Bool) :
    List (Fin n) → (chart : Chart n) → { next : Chart n // next.free ≤ chart.free }
  | [], chart => ⟨chart, Nat.le_refl _⟩
  | child :: rest, chart =>
    if unplaced : chart.cells child = none then
      have fewer := free_putChild_lt unplaced cell continued
      let below := exploreWithin children (chart.childCell cell continued) false
        (children child).reverse (chart.putChild child cell continued)
      have fewerBelow : below.1.free < chart.free := Nat.lt_of_le_of_lt below.2 fewer
      let after := exploreWithin children cell true rest below.1
      ⟨after.1, Nat.le_trans after.2 (Nat.le_of_lt fewerBelow)⟩
    else exploreWithin children cell continued rest chart
termination_by todo chart => (chart.free, todo.length)

/-- Explores children of a node one after the other: a child that has no cell
gets one, and its own children are explored, the last one first, before the next
child. -/
def explore (children : Fin n → List (Fin n)) (cell : GridCell) (continued : Bool)
    (todo : List (Fin n)) (chart : Chart n) : Chart n :=
  (exploreWithin children cell continued todo chart).1

/-- Places a root on a fresh row, and all that it leads to. -/
def growRoot (children : Fin n → List (Fin n)) (chart : Chart n) (root : Fin n) : Chart n :=
  explore children ⟨0, chart.rows⟩ false (children root).reverse (chart.putRoot root)

/-- Places a node that nothing has led to. -/
def fill (chart : Chart n) (node : Fin n) : Chart n :=
  if chart.cells node = none then chart.putRoot node else chart

/-! ### Calls -/

/-- The nodes that a node calls, in the order of the calls. -/
def callees (calls : List (Fin n × Fin n)) (node : Fin n) : List (Fin n) :=
  (calls.filter fun call => call.1 = node).map Prod.snd

/-- Nodes by descending number of callees, equal ones in the given order. -/
def ranked (calls : List (Fin n × Fin n)) (nodes : List (Fin n)) : List (Fin n) :=
  nodes.insertionSort fun first second =>
    (callees calls second).length ≤ (callees calls first).length

/-- The chart of different calls: first the nodes that nobody calls, each with
all that it leads to, then the rest in order. -/
def ofCalls (calls : List (Fin n × Fin n)) : Chart n :=
  let roots := (List.finRange n).filter fun node => node ∉ calls.map Prod.snd
  let children := fun node => ranked calls (callees calls node)
  (List.finRange n).foldl fill ((ranked calls roots).foldl (growRoot children) (empty n))

/-- The node that an id names, which is the last one under the id. -/
def named (ids : List NodeId) (id : NodeId) : Option (Fin ids.length) :=
  ((List.finRange ids.length).filter fun node => ids.get node = id).getLast?

/-- Takes note of an edge if it is a call between two different nodes and the
first one between them. -/
def noteCall (ids : List NodeId) (calls : List (Fin ids.length × Fin ids.length))
    (edge : LayoutEdge) : List (Fin ids.length × Fin ids.length) :=
  match named ids edge.source, named ids edge.target with
  | some source, some target =>
    if edge.kind.isCallLike = true ∧ source ≠ target ∧ (source, target) ∉ calls then
      calls ++ [(source, target)]
    else calls
  | _, _ => calls

/-- The chart of nodes and edges. -/
def ofEdges (ids : List NodeId) (edges : List LayoutEdge) : Chart ids.length :=
  ofCalls (edges.foldl (noteCall ids) [])

/-! ### Equations -/

section Equations

variable (children : Fin n → List (Fin n)) (cell : GridCell) (continued : Bool)

theorem explore_nil (chart : Chart n) : explore children cell continued [] chart = chart := by
  rw [explore, exploreWithin]

theorem explore_cons_of_placed {chart : Chart n} {child : Fin n}
    (placed : chart.cells child ≠ none) (rest : List (Fin n)) :
    explore children cell continued (child :: rest) chart =
      explore children cell continued rest chart := by
  rw [explore, exploreWithin, dif_neg placed]
  rfl

theorem explore_cons_of_free {chart : Chart n} {child : Fin n}
    (unplaced : chart.cells child = none) (rest : List (Fin n)) :
    explore children cell continued (child :: rest) chart =
      explore children cell true rest
        (explore children (chart.childCell cell continued) false (children child).reverse
          (chart.putChild child cell continued)) := by
  rw [explore, exploreWithin, dif_pos unplaced]
  rfl

end Equations

/-- What is true of every exploration: it holds where there is nothing to do, and
it is carried over a child that has a cell, and over one that has none and what
comes of it. -/
theorem explore_induction (children : Fin n → List (Fin n))
    {motive : GridCell → Bool → List (Fin n) → Chart n → Prop}
    (nil : ∀ cell continued chart, motive cell continued [] chart)
    (placed : ∀ cell continued child rest (chart : Chart n), chart.cells child ≠ none →
      motive cell continued rest chart → motive cell continued (child :: rest) chart)
    (free : ∀ cell continued child rest (chart : Chart n), chart.cells child = none →
      motive (chart.childCell cell continued) false (children child).reverse
        (chart.putChild child cell continued) →
      motive cell true rest (explore children (chart.childCell cell continued) false
        (children child).reverse (chart.putChild child cell continued)) →
      motive cell continued (child :: rest) chart)
    (cell : GridCell) (continued : Bool) (todo : List (Fin n)) (chart : Chart n) :
    motive cell continued todo chart := by
  induction cell, continued, todo, chart using exploreWithin.induct children with
  | case1 cell continued chart => exact nil cell continued chart
  | case2 cell continued child rest chart unplaced _ below _ first second _ =>
    exact free cell continued child rest chart unplaced first second
  | case3 cell continued child rest chart occupied ih =>
    exact placed cell continued child rest chart occupied ih

/-- Cells are given out for good. -/
theorem cells_explore_of_some (children : Fin n → List (Fin n)) (cell : GridCell)
    (continued : Bool) (todo : List (Fin n)) (chart : Chart n) {node : Fin n}
    {given : GridCell} (placed : chart.cells node = some given) :
    (explore children cell continued todo chart).cells node = some given := by
  induction cell, continued, todo, chart using explore_induction children with
  | nil cell continued chart => rwa [explore_nil]
  | placed cell continued child rest chart occupied ih =>
    rw [explore_cons_of_placed _ _ _ occupied]
    exact ih placed
  | free cell continued child rest chart unplaced below after =>
    rw [explore_cons_of_free _ _ _ unplaced]
    apply after
    apply below
    have different : node ≠ child := by
      rintro rfl
      rw [unplaced] at placed
      cases placed
    rw [cells_putChild, if_neg different, placed]

/-- So nodes with cells keep them while a child is placed and explored. -/
theorem cells_explore_putChild (children : Fin n → List (Fin n)) {chart : Chart n}
    {child node : Fin n} (unplaced : chart.cells child = none)
    (occupied : chart.cells node ≠ none) (cell childCell : GridCell) (continued : Bool)
    (todo : List (Fin n)) :
    (explore children childCell false todo (chart.putChild child cell continued)).cells node =
      chart.cells node := by
  obtain ⟨given, found⟩ := Option.ne_none_iff_exists'.mp occupied
  rw [found]
  apply cells_explore_of_some
  rw [cells_putChild, if_neg, found]
  rintro rfl
  exact occupied unplaced

/-- A node that is nobody's child is not reached. -/
theorem cells_explore_of_not_child {children : Fin n → List (Fin n)} {root : Fin n}
    (nobody : ∀ node, root ∉ children node) (cell : GridCell) (continued : Bool)
    (todo : List (Fin n)) (chart : Chart n) (absent : root ∉ todo) :
    (explore children cell continued todo chart).cells root = chart.cells root := by
  induction cell, continued, todo, chart using explore_induction children with
  | nil cell continued chart => rw [explore_nil]
  | placed cell continued child rest chart occupied ih =>
    rw [explore_cons_of_placed _ _ _ occupied]
    exact ih (List.not_mem_of_not_mem_cons absent)
  | free cell continued child rest chart unplaced below after =>
    have reversed : root ∉ (children child).reverse := by simpa using nobody child
    rw [explore_cons_of_free _ _ _ unplaced,
      after (List.not_mem_of_not_mem_cons absent), below reversed, cells_putChild,
      if_neg (List.ne_of_not_mem_cons absent)]

end Chart

/-! ## The stack -/

namespace Placement

variable {n : Nat} {children : Fin n → List (Fin n)} {placement : Placement n}

/-- A placement has the cells and the rows of a chart, and only nodes with cells
are marked. -/
structure Agrees (placement : Placement n) (chart : Chart n) : Prop where
  cells : ∀ node, placement.cells.get node = chart.cells node
  rows : placement.nextRow = chart.rows
  unmarked : ∀ node, chart.cells node = none → placement.continued.get node = false

variable {chart : Chart n}

theorem agrees_empty (n : Nat) : (empty n).Agrees (.empty n) := by
  constructor
  · exact cells_empty
  · rfl
  · exact fun node _ => continued_empty node

theorem Agrees.putRoot (agrees : placement.Agrees chart) (node : Fin n) :
    (placement.putRoot node).Agrees (chart.putRoot node) := by
  constructor
  · intro other
    rw [cells_putRoot, Chart.cells_putRoot, agrees.rows, agrees.cells]
  · exact congrArg (· + 1) agrees.rows
  · intro other unplaced
    rw [Chart.cells_putRoot] at unplaced
    split at unplaced
    · cases unplaced
    · exact agrees.unmarked other unplaced

/-- A child that is placed leaves a mark at its parent. -/
theorem continued_putChild (placement : Placement n) (child parent other : Fin n)
    (cell : GridCell) :
    (placement.putChild child parent cell).continued.get other =
      if other = parent then true else placement.continued.get other := by
  cases mark : placement.continued.get parent with
  | true =>
    rw [putChild_of_marked mark]
    by_cases same : other = parent
    · rw [if_pos same, same]
      exact mark
    · rw [if_neg same]
      rfl
  | false =>
    rw [putChild_of_unmarked mark]
    exact get_set placement.continued parent other true

theorem Agrees.putChild (agrees : placement.Agrees chart) {child parent : Fin n}
    {cell : GridCell} (placed : chart.cells parent = some cell) :
    (placement.putChild child parent cell).Agrees
      (chart.putChild child cell (placement.continued.get parent)) := by
  constructor
  · intro other
    rw [Chart.cells_putChild, Chart.childCell, ← agrees.cells, ← agrees.rows]
    cases mark : placement.continued.get parent with
    | true =>
      rw [putChild_of_marked mark]
      exact cells_put placement child other _
    | false =>
      rw [putChild_of_unmarked mark]
      exact cells_put placement child other _
  · rw [Chart.putChild, ← agrees.rows]
    cases mark : placement.continued.get parent with
    | true =>
      rw [putChild_of_marked mark]
      rfl
    | false =>
      rw [putChild_of_unmarked mark]
      rfl
  · intro other unplaced
    rw [Chart.cells_putChild] at unplaced
    split at unplaced
    · cases unplaced
    · rw [continued_putChild, if_neg]
      · exact agrees.unmarked other unplaced
      · rintro rfl
        rw [unplaced] at placed
        cases placed

/-! ### Taking entries off the stack -/

theorem explore_nil (children : Fin n → List (Fin n)) (placement : Placement n) :
    explore children [] placement = placement := by
  rw [explore]

theorem explore_cons_of_placed {node : Fin n} (placed : placement.cells.get node ≠ none)
    (parent : Fin n) (stack : List (Fin n × Fin n)) :
    explore children ((node, parent) :: stack) placement = explore children stack placement := by
  rw [explore]
  split
  · next free _ => exact absurd free placed
  · rfl

theorem explore_cons_of_free {node parent : Fin n} {cell : GridCell}
    (free : placement.cells.get node = none) (placed : placement.cells.get parent = some cell)
    (stack : List (Fin n × Fin n)) :
    explore children ((node, parent) :: stack) placement =
      explore children
        ((((children node).reverse.filter (placement.putChild node parent cell).isUnplaced).map
          fun child => (child, node)) ++ stack)
        (placement.putChild node parent cell) := by
  rw [explore]
  split
  · next found _ foundPlaced =>
      cases foundPlaced.symm.trans placed
      rw [List.filter_reverse]
  · next other => exact absurd placed (other cell free)

/-- Children of one node on top of the stack are taken off as the recursion
explores them.  Those that had cells before may be missing on the stack. -/
theorem explore_siblings (children : Fin n → List (Fin n)) (cell : GridCell) (continued : Bool)
    (todo : List (Fin n)) (chart : Chart n) (placement : Placement n) (parent : Fin n)
    (keep : Fin n → Bool) (stack : List (Fin n × Fin n)) (agrees : placement.Agrees chart)
    (placed : chart.cells parent = some cell)
    (mark : placement.continued.get parent = continued)
    (dropped : ∀ child ∈ todo, keep child = false → chart.cells child ≠ none) :
    ∃ next, explore children ((todo.filter keep).map (fun child => (child, parent)) ++ stack)
        placement = explore children stack next ∧
      next.Agrees (chart.explore children cell continued todo) ∧
      ∀ node, node ≠ parent → chart.cells node ≠ none →
        next.continued.get node = placement.continued.get node := by
  induction cell, continued, todo, chart using Chart.explore_induction children
    generalizing placement parent keep stack with
  | nil cell continued chart =>
    refine ⟨placement, rfl, ?_, fun _ _ _ => rfl⟩
    rw [Chart.explore_nil]
    exact agrees
  | placed cell continued child rest chart occupied ih =>
    obtain ⟨next, explored, agreesNext, marks⟩ :=
      ih placement parent keep stack agrees placed mark
        fun other mem => dropped other (List.mem_cons_of_mem _ mem)
    refine ⟨next, ?_, ?_, marks⟩
    · rw [← explored]
      by_cases kept : keep child = true
      · rw [List.filter_cons_of_pos kept]
        exact explore_cons_of_placed (agrees.cells child ▸ occupied) parent _
      · rw [List.filter_cons_of_neg kept]
    · rw [Chart.explore_cons_of_placed _ _ _ occupied]
      exact agreesNext
  | free cell continued child rest chart unplaced exploreBelow exploreAfter =>
    subst mark
    have kept : keep child = true := by
      by_contra missing
      exact dropped child List.mem_cons_self (Bool.eq_false_iff.mpr missing) unplaced
    have apart : child ≠ parent := by
      rintro rfl
      rw [unplaced] at placed
      cases placed
    have placedHere : ∀ {node : Fin n}, chart.cells node ≠ none → node ≠ child := by
      rintro node occupied rfl
      exact occupied unplaced
    -- The child gets its cell, and its children go on top of the stack.
    have agreesChild : (placement.putChild child parent cell).Agrees _ := agrees.putChild placed
    obtain ⟨middle, exploredBelow, agreesBelow, marksBelow⟩ :=
      exploreBelow (placement.putChild child parent cell) child
        (placement.putChild child parent cell).isUnplaced
        ((rest.filter keep).map (fun sibling => (sibling, parent)) ++ stack) agreesChild
        (by rw [Chart.cells_putChild, if_pos rfl])
        (by rw [continued_putChild, if_neg apart, agrees.unmarked child unplaced])
        (by
          intro other _ gone free
          rw [← agreesChild.cells] at free
          exact Bool.eq_false_iff.mp gone (isUnplaced_iff.mpr free))
    have keptBelow := fun (node : Fin n) (occupied : chart.cells node ≠ none) =>
      Chart.cells_explore_putChild children unplaced occupied cell
        (chart.childCell cell (placement.continued.get parent))
        (placement.continued.get parent) (children child).reverse
    -- Then come its siblings, and the row of the parent is continued.
    have occupiedParent : chart.cells parent ≠ none := by simp [placed]
    obtain ⟨next, exploredAfter, agreesAfter, marksAfter⟩ :=
      exploreAfter middle parent keep stack agreesBelow
        (by rw [keptBelow parent occupiedParent, placed])
        (by
          rw [marksBelow parent apart.symm, continued_putChild, if_pos rfl]
          rw [Chart.cells_putChild, if_neg apart.symm]
          exact occupiedParent)
        (by
          intro other mem gone
          have occupied := dropped other (List.mem_cons_of_mem _ mem) gone
          rw [keptBelow other occupied]
          exact occupied)
    refine ⟨next, ?_, ?_, ?_⟩
    · rw [List.filter_cons_of_pos kept, List.map_cons, List.cons_append,
        explore_cons_of_free (agrees.cells child ▸ unplaced) (agrees.cells parent ▸ placed),
        exploredBelow, exploredAfter]
    · rw [Chart.explore_cons_of_free _ _ _ unplaced]
      exact agreesAfter
    · intro node different occupied
      rw [marksAfter node different (by rw [keptBelow node occupied]; exact occupied),
        marksBelow node (placedHere occupied) _, continued_putChild, if_neg different]
      rw [Chart.cells_putChild, if_neg (placedHere occupied)]
      exact occupied

/-! ### Roots and the rest -/

theorem Agrees.growRoot (agrees : placement.Agrees chart) {root : Fin n}
    (unplaced : chart.cells root = none) :
    (placement.growRoot children root).Agrees (chart.growRoot children root) := by
  have unmarked : (placement.putRoot root).continued.get root = false :=
    agrees.unmarked root unplaced
  obtain ⟨next, explored, agreesNext, _⟩ :=
    explore_siblings children ⟨0, chart.rows⟩ false (children root).reverse
      (chart.putRoot root) (placement.putRoot root) root (fun _ => true) []
      (agrees.putRoot root) (by rw [Chart.cells_putRoot, if_pos rfl]) unmarked nofun
  rw [List.filter_true, List.append_nil, explore_nil] at explored
  rw [Placement.growRoot, if_pos (isUnplaced_iff.mpr (agrees.cells root ▸ unplaced)), explored]
  exact agreesNext

/-- Roots are nobody's children, so each of them is free when its turn comes. -/
theorem Agrees.growRoots (agrees : placement.Agrees chart) {roots : List (Fin n)}
    (distinct : roots.Nodup) (nobody : ∀ root ∈ roots, ∀ node, root ∉ children node)
    (unplaced : ∀ root ∈ roots, chart.cells root = none) :
    (roots.foldl (Placement.growRoot children) placement).Agrees
      (roots.foldl (Chart.growRoot children) chart) := by
  induction roots generalizing placement chart with
  | nil => exact agrees
  | cons root rest ih =>
    obtain ⟨absent, restDistinct⟩ := List.nodup_cons.mp distinct
    apply ih (agrees.growRoot (unplaced root List.mem_cons_self)) restDistinct
    · exact fun other mem => nobody other (List.mem_cons_of_mem _ mem)
    · intro other mem
      have different : other ≠ root := by
        rintro rfl
        exact absent mem
      have free := nobody other (List.mem_cons_of_mem _ mem)
      rw [Chart.growRoot, Chart.cells_explore_of_not_child free _ _ _ _ (by simpa using free root),
        Chart.cells_putRoot, if_neg different]
      exact unplaced other (List.mem_cons_of_mem _ mem)

theorem Agrees.fill (agrees : placement.Agrees chart) (nodes : List (Fin n)) :
    (nodes.foldl Placement.fill placement).Agrees (nodes.foldl Chart.fill chart) := by
  induction nodes generalizing placement chart with
  | nil => exact agrees
  | cons node rest ih =>
    apply ih
    unfold Placement.fill Chart.fill
    by_cases free : chart.cells node = none
    · rw [if_pos (isUnplaced_iff.mpr (agrees.cells node ▸ free)), if_pos free]
      exact agrees.putRoot node
    · rw [if_neg (mt isUnplaced_iff.mp (agrees.cells node ▸ free)), if_neg free]
      exact agrees

end Placement

/-! ## Calls -/

/-- Merging sorts as inserting does: equal items keep their order. -/
theorem mergeSort_eq_insertionSort {α : Type} (rank : α → Nat) (items : List α) :
    items.mergeSort (fun first second => rank second ≤ rank first) =
      items.insertionSort fun first second => rank second ≤ rank first := by
  have trans : ∀ first second third : α, decide (rank second ≤ rank first) = true →
      decide (rank third ≤ rank second) = true → decide (rank third ≤ rank first) = true := by
    simp only [decide_eq_true_eq]
    exact fun _ _ _ before after => Nat.le_trans after before
  have total : ∀ first second : α,
      (decide (rank second ≤ rank first) || decide (rank first ≤ rank second)) = true := by
    intro first second
    simpa using Nat.le_total (rank second) (rank first)
  induction items with
  | nil => rw [List.mergeSort_nil, List.insertionSort_nil]
  | cons item rest ih =>
    obtain ⟨before, after, whole, without, smaller⟩ :=
      List.mergeSort_cons trans total item rest
    have sorted := List.pairwise_mergeSort trans total (item :: rest)
    rw [whole] at sorted
    rw [List.insertionSort_cons, ← ih, without, whole, List.orderedInsert_eq_take_drop]
    have passed : ∀ other ∈ before, decide (¬ rank other ≤ rank item) = true := by
      simpa using smaller
    rw [List.takeWhile_append_of_pos passed, List.dropWhile_append_of_pos passed]
    cases after with
    | nil => simp
    | cons next others =>
      have least : rank next ≤ rank item := by
        have rest := (List.pairwise_append.mp sorted).2.1
        simpa using List.rel_of_pairwise_cons rest List.mem_cons_self
      simp [least]

namespace LinkGraph

variable {n : Nat}

theorem byDegree_eq_ranked (graph : LinkGraph n) (nodes : List (Fin n)) :
    byDegree graph.outDegree nodes = Chart.ranked graph.links nodes :=
  mergeSort_eq_insertionSort graph.outDegree nodes

theorem children_eq_ranked (graph : LinkGraph n) :
    graph.children = fun node => Chart.ranked graph.links (Chart.callees graph.links node) :=
  funext fun node => graph.byDegree_eq_ranked (graph.targets node)

/-- The walk with a stack places the nodes as the recursion does. -/
theorem agrees_placement (graph : LinkGraph n) :
    graph.placement.Agrees (Chart.ofCalls graph.links) := by
  have roots : (List.finRange n).filter graph.isRoot =
      (List.finRange n).filter fun node => node ∉ graph.links.map Prod.snd := by
    apply List.filter_congr
    intro node _
    rw [Bool.eq_iff_iff, isRoot, List.all_eq_true, decide_eq_true_eq, List.mem_map, not_exists]
    simp only [decide_eq_true_eq, ne_eq, not_and]
  rw [placement, Chart.ofCalls, byDegree_eq_ranked, roots, ← children_eq_ranked]
  apply Placement.Agrees.fill
  apply (Placement.agrees_empty n).growRoots
  · exact (List.perm_insertionSort _ _).nodup_iff.mpr ((List.nodup_finRange n).filter _)
  · intro root mem node isChild
    rw [Chart.ranked, List.mem_insertionSort, List.mem_filter, decide_eq_true_eq] at mem
    rw [children, byDegree_eq_ranked, Chart.ranked, List.mem_insertionSort] at isChild
    obtain ⟨call, callMem, called⟩ := List.mem_map.mp isChild
    exact mem.2 (List.mem_map.mpr ⟨call, List.mem_of_mem_filter callMem, called⟩)
  · exact fun _ _ => rfl

end LinkGraph

/-! ## Edges -/

theorem lastIndex?_eq_named (ids : List NodeId) (id : NodeId) :
    lastIndex? ids id = Chart.named ids id := by
  rw [Chart.named, List.getLast?_filter]
  rfl

/-- An edge is noted exactly if it makes a link that was not noted before. -/
theorem noteCall_eq (ids : List NodeId) (calls : List (Fin ids.length × Fin ids.length))
    (edge : LayoutEdge) :
    Chart.noteCall ids calls edge =
      match edge.link? ids with
      | some link => if link ∈ calls then calls else calls ++ [link]
      | none => calls := by
  unfold Chart.noteCall LayoutEdge.link?
  rw [lastIndex?_eq_named, lastIndex?_eq_named]
  cases Chart.named ids edge.source with
  | none => simp
  | some source =>
    cases Chart.named ids edge.target with
    | none => simp
    | some target =>
      by_cases callLike : edge.kind.isCallLike = true
      · by_cases same : source = target
        · simp [callLike, same]
        · by_cases known : (source, target) ∈ calls <;> simp [callLike, same, known]
      · simp [callLike]

/-- An item is kept unless it occurs before. -/
theorem eraseDups_concat {α : Type} [BEq α] [LawfulBEq α] (items : List α) (item : α) :
    (items ++ [item]).eraseDups =
      if item ∈ items.eraseDups then items.eraseDups else items.eraseDups ++ [item] := by
  rw [List.eraseDups_append, List.removeAll]
  by_cases known : item ∈ items
  · simp [known]
  · simp [known, List.eraseDups_cons]

/-- Of the links of edges each is kept where it occurs first. -/
theorem links_linkGraph (ids : List NodeId) (edges : List LayoutEdge) :
    (linkGraph ids edges).links = edges.foldl (Chart.noteCall ids) [] := by
  induction edges using List.reverseRecOn with
  | nil => rfl
  | append_singleton edges edge ih =>
    rw [List.foldl_append, ← ih, List.foldl_cons, List.foldl_nil, noteCall_eq,
      linkGraph, linkGraph, List.filterMap_append]
    cases made : edge.link? ids with
    | none => rw [List.filterMap_cons_none made, List.filterMap_nil, List.append_nil]
    | some link =>
      rw [List.filterMap_cons_some made, List.filterMap_nil]
      exact eraseDups_concat _ link

/-- For all nodes and edges, the cells of the grid are those of the recursion,
which gives every node a cell. -/
theorem grid_eq_recursion {R : Type} (nodes : List (LayoutNode R))
    (edges : List LayoutEdge) :
    (TreeLayouter.grid nodes edges).map some =
      (List.finRange (nodes.map LayoutNode.id).length).map
        (Chart.ofEdges (nodes.map LayoutNode.id) edges).cells := by
  rw [TreeLayouter.grid, LinkGraph.grid_eq, Placement.toList_eq, List.map_map, Chart.ofEdges,
    ← links_linkGraph]
  apply List.map_congr_left
  intro node _
  obtain ⟨cell, placed⟩ := LinkGraph.exists_cell (linkGraph (nodes.map LayoutNode.id) edges) node
  rw [← (LinkGraph.agrees_placement _).cells, Function.comp_apply, placed]
  rfl

end CodeAtlas
