import CodeAtlas.Config.Basic
import CodeAtlas.Geometry.Vec
import CodeAtlas.Layout.Grid

/-!
# The tree layout

Boxes go to the cells of the grid of their call tree.  A column is as wide as
its widest box and a row as high as its highest, and gaps stand between them.
The position of a box is the middle of its upper edge.
-/

namespace CodeAtlas

/-- A box to be placed. -/
structure LayoutNode (R : Type) where
  id : NodeId
  width : R
  height : R

/-- A link between boxes. -/
structure LayoutEdge where
  source : NodeId
  target : NodeId
  kind : EdgeKind
deriving DecidableEq, Repr

/-- Where boxes go.  Of several positions of one box the last one counts. -/
abbrev Positions (R : Type) : Type :=
  List (NodeId × Vec R)

/-- The position of a box. -/
def Positions.get? {R : Type} (positions : Positions R) (id : NodeId) : Option (Vec R) :=
  positions.reverse.lookup id

/-- A way to place boxes. -/
abbrev Layouter (R : Type) : Type :=
  List (LayoutNode R) → List LayoutEdge → Positions R

/-- The number of the last box with the given id. -/
def lastIndex? (ids : List NodeId) (id : NodeId) : Option (Fin ids.length) :=
  (List.finRange ids.length).reverse.find? fun index => ids[index] == id

/-- The link that an edge makes between two different boxes, if the tree
follows edges of its kind. -/
def LayoutEdge.link? (ids : List NodeId) (edge : LayoutEdge) :
    Option (Fin ids.length × Fin ids.length) :=
  if edge.kind.isCallLike then
    match lastIndex? ids edge.source, lastIndex? ids edge.target with
    | some source, some target => if source = target then none else some (source, target)
    | _, _ => none
  else none

/-- The links between boxes, each once. -/
def linkGraph (ids : List NodeId) (edges : List LayoutEdge) : LinkGraph ids.length :=
  ⟨(edges.filterMap (LayoutEdge.link? ids)).eraseDups⟩

/-- The call tree from left to right. -/
structure TreeLayouter (R : Type) where
  horizontalGap : R
  verticalGap : R

namespace TreeLayouter

variable {R : Type} [Scalar R]

def standard : TreeLayouter R :=
  ⟨80.0, 40.0⟩

def ofSettings (settings : LayoutSettings R) : TreeLayouter R :=
  ⟨settings.horizontalGap, settings.verticalGap⟩

/-- The cells of the boxes, before their sizes are looked at. -/
def grid (nodes : List (LayoutNode R)) (edges : List LayoutEdge) : List GridCell :=
  (linkGraph (nodes.map LayoutNode.id) edges).grid

/-- The greatest extent among the boxes on a line of the grid; a pair gives the
line of a box and its extent. -/
def lineExtent (boxes : List (Nat × R)) (line : Nat) : R :=
  boxes.foldl (fun extent box => if box.1 = line then Scalar.max extent box.2 else extent) 0.0

/-- The starts of the lines with the given extents, from `start` on. -/
def offsets (gap : R) : R → List R → List R
  | _, [] => []
  | start, extent :: rest => start :: offsets gap (start + (extent + gap)) rest

/-- The starts of all lines. -/
def lineStarts (gap : R) (boxes : List (Nat × R)) : List R :=
  let count := boxes.foldl (fun count box => Nat.max count (box.1 + 1)) 0
  offsets gap 0.0 ((List.range count).map (lineExtent boxes))

/-- Where the boxes go. -/
def execute (layouter : TreeLayouter R) : Layouter R := fun nodes edges =>
  let placed := nodes.zip (grid nodes edges)
  let columns := lineStarts layouter.horizontalGap
    (placed.map fun (node, cell) => (cell.column, node.width))
  let rows := lineStarts layouter.verticalGap
    (placed.map fun (node, cell) => (cell.row, node.height))
  placed.map fun (node, cell) =>
    (node.id, ⟨columns.getD cell.column 0.0 + node.width * 0.5, rows.getD cell.row 0.0⟩)

end TreeLayouter

end CodeAtlas
