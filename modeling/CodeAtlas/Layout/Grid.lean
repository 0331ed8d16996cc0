import CodeAtlas.Model.Payload

/-!
# The grid of a call tree

Callers stand to the left and callees one column further right.  The first
explored child of a node continues the node's row; every other child opens a
fresh row below all rows so far.

The nodes are numbered, and a graph on them gives to each node its children in
the order of preference.  `Placement.explore` walks the graph depth first with
an explicit stack.
-/

namespace CodeAtlas

/-- A place in the grid. -/
structure GridCell where
  column : Nat
  row : Nat
deriving DecidableEq, Repr, Inhabited

/-- The cells given out so far to `n` nodes. -/
structure Placement (n : Nat) where
  cells : Vector (Option GridCell) n
  /-- Nodes whose row a child has continued. -/
  continued : Vector Bool n
  nextRow : Nat

namespace Placement

variable {n : Nat}

/-- Nothing is placed. -/
def empty (n : Nat) : Placement n :=
  ⟨Vector.replicate n none, Vector.replicate n false, 0⟩

/-- Whether a node has no cell. -/
def isUnplaced (placement : Placement n) (node : Fin n) : Bool :=
  placement.cells[node].isNone

/-- The number of nodes without a cell. -/
def unplaced (placement : Placement n) : Nat :=
  placement.cells.countP Option.isNone

/-- Gives a cell to a node. -/
def put (placement : Placement n) (node : Fin n) (cell : GridCell) : Placement n :=
  { placement with cells := placement.cells.set node.val (some cell) node.isLt }

/-- Gives a node the first cell of a fresh row. -/
def putRoot (placement : Placement n) (node : Fin n) : Placement n :=
  { placement.put node ⟨0, placement.nextRow⟩ with nextRow := placement.nextRow + 1 }

/-- Gives a node the cell after its parent's: on the parent's row if no child
has continued it, else on a fresh row. -/
def putChild (placement : Placement n) (node parent : Fin n) (cell : GridCell) : Placement n :=
  if placement.continued[parent] then
    { placement.put node ⟨cell.column + 1, placement.nextRow⟩ with
      nextRow := placement.nextRow + 1 }
  else
    { placement.put node ⟨cell.column + 1, cell.row⟩ with
      continued := placement.continued.set parent.val true parent.isLt }

theorem unplaced_put_lt (placement : Placement n) (node : Fin n) (cell : GridCell)
    (free : placement.cells[node] = none) : (placement.put node cell).unplaced < placement.unplaced := by
  have positive : 0 < placement.cells.countP Option.isNone :=
    Vector.countP_pos_iff.mpr ⟨placement.cells[node], Vector.getElem_mem node.isLt, by simp [free]⟩
  have free' : placement.cells[node.val] = none := free
  simp only [unplaced, put, Vector.countP_set, free', Option.isNone_none, Option.isNone_some,
    Bool.false_eq_true, ↓reduceIte]
  omega

theorem unplaced_putChild (placement : Placement n) (node parent : Fin n) (cell : GridCell)
    (free : placement.cells[node] = none) :
    (placement.putChild node parent cell).unplaced < placement.unplaced := by
  unfold putChild
  split <;> exact placement.unplaced_put_lt node _ free

/-- Places the nodes on the stack, each with its parent, and all that they lead
to, depth first.  The top of the stack is the head of the list; children are
pushed so that the last child is explored first. -/
def explore (children : Fin n → List (Fin n)) :
    List (Fin n × Fin n) → Placement n → Placement n
  | [], placement => placement
  | (node, parent) :: stack, placement =>
    match free : placement.cells[node], placement.cells[parent] with
    | none, some cell =>
      let next := placement.putChild node parent cell
      let fresh := (children node).filter next.isUnplaced
      explore children ((fresh.reverse.map fun child => (child, node)) ++ stack) next
    | _, _ => explore children stack placement
termination_by stack placement => (placement.unplaced, stack.length)
decreasing_by
  · exact Prod.Lex.left _ _ (placement.unplaced_putChild node parent cell free)
  · exact Prod.Lex.right _ (by simp)

/-- Places a root and all that it leads to. -/
def growRoot (children : Fin n → List (Fin n)) (placement : Placement n) (root : Fin n) :
    Placement n :=
  if placement.isUnplaced root then
    let next := placement.putRoot root
    explore children ((children root).reverse.map fun child => (child, root)) next
  else placement

/-- Gives each node that has no cell the first cell of a fresh row. -/
def fill (placement : Placement n) (node : Fin n) : Placement n :=
  if placement.isUnplaced node then placement.putRoot node else placement

/-- The cells of all nodes; a node without one counts as the first cell. -/
def toList (placement : Placement n) : List GridCell :=
  placement.cells.toList.map fun cell => cell.getD default

end Placement

/-- Which of `n` nodes lead to which. -/
structure LinkGraph (n : Nat) where
  /-- The links, each once, in order. -/
  links : List (Fin n × Fin n)

namespace LinkGraph

variable {n : Nat}

/-- The nodes that a node leads to, in order of the links. -/
def targets (graph : LinkGraph n) (node : Fin n) : List (Fin n) :=
  (graph.links.filter fun link => link.1 = node).map Prod.snd

def outDegree (graph : LinkGraph n) (node : Fin n) : Nat :=
  (graph.targets node).length

/-- Whether nothing leads to the node. -/
def isRoot (graph : LinkGraph n) (node : Fin n) : Bool :=
  graph.links.all fun link => link.2 ≠ node

/-- Nodes by descending out-degree, equal ones in the given order. -/
def byDegree (degree : Fin n → Nat) (nodes : List (Fin n)) : List (Fin n) :=
  nodes.mergeSort fun a b => degree b ≤ degree a

/-- The cells of all nodes: first what the roots lead to, then the rest in
order. -/
def grid (graph : LinkGraph n) : List GridCell :=
  let degrees := Vector.ofFn graph.outDegree
  let degree := fun (node : Fin n) => degrees[node]
  let adjacency := Vector.ofFn fun node => byDegree degree (graph.targets node)
  let children := fun (node : Fin n) => adjacency[node]
  let nodes := List.finRange n
  let roots := byDegree degree (nodes.filter graph.isRoot)
  let grown := roots.foldl (Placement.growRoot children) (Placement.empty n)
  (nodes.foldl Placement.fill grown).toList

end LinkGraph

end CodeAtlas
