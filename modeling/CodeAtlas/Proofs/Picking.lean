import CodeAtlas.Proofs.Hit
import CodeAtlas.Proofs.Registry.Boxes
import CodeAtlas.Proofs.Registry.Placement

/-!
# What can be picked on the map

A class can be picked at its box, its header and its visible rows.  All of it
lies in the box, boxes stand apart, headers lie above boxes and rows above
headers, and rows do not overlap.  So without rounding each inner point of a
part belongs to that part alone.
-/

namespace CodeAtlas

variable {R : Type} [Scalar R] {reg : Registry R}

/-- The header of a box. -/
def NodeMetrics.headerAt (metrics : NodeMetrics R) (box : Rect R) : Rect R :=
  .ofPosSize box.min ⟨box.width, metrics.headerHeight⟩

theorem Registry.Coherent.headerRect_eq (coherent : reg.Coherent) {node : ClassNode R}
    (mem : node ∈ reg.classes.items) :
    reg.headerRect node.id = some (reg.metrics.headerAt node.rect) := by
  have found : reg.classes.get? node.id = some node :=
    Store.get?_of_mem coherent.classKeys mem
  rw [headerRect, found]
  rfl

/-! ## Regions of a scene -/

namespace Scene

section
omit [Scalar R]

@[simp]
theorem hitRegions_cons (role : Role) (kind : DrawKind R) (base : Paint R) (shape : Shape R)
    (elevation : R) (rest : List (Primitive R)) :
    hitRegions ⟨⟨role, kind, base, some (shape, elevation)⟩ :: rest⟩ =
      ⟨role, shape, elevation⟩ :: hitRegions ⟨rest⟩ :=
  rfl

theorem hitRegions_append (first second : List (Primitive R)) :
    hitRegions ⟨first ++ second⟩ = hitRegions ⟨first⟩ ++ hitRegions ⟨second⟩ :=
  List.filterMap_append

theorem hitRegions_flatMap {α : Type} (items : List α) (part : α → List (Primitive R)) :
    hitRegions ⟨items.flatMap part⟩ = items.flatMap fun item => hitRegions ⟨part item⟩ :=
  List.filterMap_flatMap

end

@[simp]
theorem hitRegions_label (pool : Pool R) (role : Role) (resource : Option ResourceId)
    (within : Rect R) (align : Align) : hitRegions ⟨label pool role resource within align⟩ = [] := by
  unfold label
  split
  · rfl
  · split <;> rfl

@[simp]
theorem hitRegions_edge (reg : Registry R) (item : Edge) :
    hitRegions ⟨edge reg item⟩ = [] := by
  unfold edge
  split
  · rfl
  · dsimp only
    split <;> rfl

/-- The region of a standalone box. -/
def standaloneRegion (node : StandaloneNode R) : HitRegion R :=
  ⟨.standalone node.id, .rect node.rect, nodeElevation⟩

/-- The regions of a class: its box, its header and its visible rows. -/
def classRegions (reg : Registry R) (node : ClassNode R) : List (HitRegion R) :=
  ⟨.classBackground node.id, .rect node.rect, nodeElevation⟩ ::
    ((reg.headerRect node.id).toList.map fun header =>
        ⟨.classHeader node.id, .rect header, headerElevation⟩) ++
    (reg.visibleMethods node.id).filterMap fun method =>
      (reg.methodRowRect method.id).map fun row =>
        ⟨.methodRow node.id method.id, .rect (insetRow row), rowElevation⟩

theorem hitRegions_standalone (reg : Registry R) (node : StandaloneNode R) :
    hitRegions ⟨standalone reg node⟩ = [standaloneRegion node] := by
  simp [standalone, standaloneRegion]

theorem hitRegions_classHeader (reg : Registry R) (node : ClassNode R) :
    hitRegions ⟨classHeader reg node⟩ = (reg.headerRect node.id).toList.map fun header =>
      ⟨.classHeader node.id, .rect header, headerElevation⟩ := by
  unfold classHeader
  cases reg.headerRect node.id with
  | none => rfl
  | some header => simp

theorem hitRegions_methodRow (reg : Registry R) (node : ClassNode R) (method : Method) :
    hitRegions ⟨methodRow reg node method⟩ =
      ((reg.methodRowRect method.id).map fun row =>
        ⟨.methodRow node.id method.id, .rect (insetRow row), rowElevation⟩).toList := by
  unfold methodRow
  cases reg.methodRowRect method.id with
  | none => rfl
  | some row => simp

theorem hitRegions_classBox (reg : Registry R) (node : ClassNode R) :
    hitRegions ⟨classBox reg node⟩ = classRegions reg node := by
  rw [classBox, hitRegions_cons, hitRegions_append, hitRegions_classHeader, hitRegions_flatMap,
    classRegions, List.filterMap_eq_flatMap_toList]
  simp only [hitRegions_methodRow]
  rfl

/-- What can be picked on the map, in drawing order. -/
theorem hitRegions_ofRegistry (reg : Registry R) :
    (ofRegistry reg).hitRegions =
      reg.standalone.items.map standaloneRegion ++
        reg.classes.items.flatMap (classRegions reg) := by
  have noEdges : (reg.edges.items.flatMap fun item => hitRegions ⟨edge reg item⟩) = [] := by
    simp
  rw [ofRegistry, hitRegions_append, hitRegions_append, hitRegions_flatMap, hitRegions_flatMap,
    hitRegions_flatMap, noEdges, List.nil_append, List.map_eq_flatMap]
  simp only [hitRegions_standalone, hitRegions_classBox]

/-- The row of a visible method is drawn as a rectangle. -/
theorem exists_row_primitive {node : ClassNode R} (mem : node ∈ reg.classes.items)
    {method : Method} (visible : method ∈ reg.visibleMethods node.id) {row : Rect R}
    (stands : reg.methodRowRect method.id = some row) :
    ∃ primitive ∈ (ofRegistry reg).primitives,
      primitive.role = .methodRow node.id method.id ∧ primitive.kind = .rect (insetRow row) := by
  let primitive : Primitive R := ⟨.methodRow node.id method.id, .rect (insetRow row),
    .fillOnly .methodRow, some (.rect (insetRow row), rowElevation)⟩
  have drawn : primitive ∈ methodRow reg node method := by
    rw [methodRow, stands]
    exact List.mem_cons_self
  have boxed : primitive ∈ classBox reg node := by
    apply List.mem_cons_of_mem
    exact List.mem_append_right _ (List.mem_flatMap.mpr ⟨method, visible, drawn⟩)
  exact ⟨primitive, List.mem_append_right _ (List.mem_flatMap.mpr ⟨node, mem, boxed⟩), rfl, rfl⟩

end Scene

/-! ## Parts of a class -/

/-- A part of a class that can be picked, with its area and its height. -/
inductive Registry.Part (reg : Registry R) (node : ClassNode R) : Role → Rect R → R → Prop where
  | background : Part reg node (.classBackground node.id) node.rect Scene.nodeElevation
  | header : Part reg node (.classHeader node.id) (reg.metrics.headerAt node.rect)
      Scene.headerElevation
  | row {method : Method} {index : Nat}
      (listed : (reg.visibleMethods node.id)[index]? = some method)
      (stands : reg.methodRowRect method.id = some (reg.metrics.rowAt node.rect index)) :
      Part reg node (.methodRow node.id method.id)
        (Scene.insetRow (reg.metrics.rowAt node.rect index)) Scene.rowElevation

theorem Registry.Coherent.mem_classRegions_iff (coherent : reg.Coherent) {node : ClassNode R}
    (mem : node ∈ reg.classes.items) {region : HitRegion R} :
    region ∈ Scene.classRegions reg node ↔
      ∃ role area elevation, reg.Part node role area elevation ∧
        region = ⟨role, .rect area, elevation⟩ := by
  rw [Scene.classRegions, coherent.headerRect_eq mem]
  constructor
  · intro listed
    rcases List.mem_append.mp listed with upper | rows
    · rcases List.mem_cons.mp upper with rfl | header
      · exact ⟨_, _, _, .background, rfl⟩
      · obtain rfl := List.mem_singleton.mp header
        exact ⟨_, _, _, .header, rfl⟩
    · obtain ⟨method, visible, drawn⟩ := List.mem_filterMap.mp rows
      obtain ⟨index, at_index, stands⟩ := coherent.exists_row mem visible
      rw [stands] at drawn
      exact ⟨_, _, _, .row at_index stands, (Option.some.inj drawn).symm⟩
  · rintro ⟨role, area, elevation, part, rfl⟩
    cases part with
    | background => exact List.mem_append_left _ List.mem_cons_self
    | header => exact List.mem_append_left _ (List.mem_cons_of_mem _ (List.mem_singleton.mpr rfl))
    | row listed stands =>
      refine List.mem_append_right _ (List.mem_filterMap.mpr ⟨_, List.mem_of_getElem? listed, ?_⟩)
      rw [stands]
      rfl

/-- On a map without standalone boxes, what can be picked are the parts of the
classes. -/
theorem Registry.Coherent.mem_hitRegions_iff (coherent : reg.Coherent)
    (noStandalone : reg.standalone.items = []) {region : HitRegion R} :
    region ∈ (Scene.ofRegistry reg).hitRegions ↔
      ∃ node ∈ reg.classes.items, ∃ role area elevation,
        reg.Part node role area elevation ∧ region = ⟨role, .rect area, elevation⟩ := by
  rw [Scene.hitRegions_ofRegistry, noStandalone, List.map_nil, List.nil_append, List.mem_flatMap]
  constructor
  · rintro ⟨node, mem, listed⟩
    exact ⟨node, mem, (coherent.mem_classRegions_iff mem).mp listed⟩
  · rintro ⟨node, mem, part⟩
    exact ⟨node, mem, (coherent.mem_classRegions_iff mem).mpr part⟩

/-! ## Areas of a class -/

section Exact

/-- No height within a box is negative. -/
structure NodeMetrics.Nonneg (metrics : NodeMetrics ℚ) : Prop where
  headerHeight : 0 ≤ metrics.headerHeight
  rowHeight : 0 ≤ metrics.rowHeight
  bottomPadding : 0 ≤ metrics.bottomPadding

namespace NodeMetrics

variable {metrics : NodeMetrics ℚ} {box : Rect ℚ}

theorem Nonneg.rows_nonneg (nonneg : metrics.Nonneg) (rows : Nat) :
    0 ≤ rows * metrics.rowHeight :=
  mul_nonneg (Nat.cast_nonneg rows) nonneg.rowHeight

/-- A row ends before any later one starts. -/
theorem Nonneg.rows_le_rows (nonneg : metrics.Nonneg) {upper lower : Nat} (before : upper < lower) :
    ((upper : ℚ) + 1) * metrics.rowHeight ≤ lower * metrics.rowHeight := by
  apply mul_le_mul_of_nonneg_right _ nonneg.rowHeight
  exact_mod_cast before

variable [Approximations]

theorem rowAt_eq (metrics : NodeMetrics ℚ) (box : Rect ℚ) (index : Nat) :
    metrics.rowAt box index =
      ⟨⟨box.min.x, box.min.y + metrics.headerHeight + index * metrics.rowHeight⟩,
        ⟨box.max.x, box.min.y + metrics.headerHeight + (index + 1) * metrics.rowHeight⟩⟩ := by
  have corners : metrics.rowAt box index =
      ⟨⟨box.min.x, box.min.y + metrics.headerHeight + Scalar.ofNat index * metrics.rowHeight⟩,
        ⟨box.min.x + (box.max.x - box.min.x), box.min.y + metrics.headerHeight +
          Scalar.ofNat index * metrics.rowHeight + metrics.rowHeight⟩⟩ := rfl
  rw [corners, Exact.ofNat_eq, add_sub_cancel, add_assoc _ _ metrics.rowHeight, add_one_mul]

theorem insetRow_rowAt (metrics : NodeMetrics ℚ) (box : Rect ℚ) (index : Nat) :
    Scene.insetRow (metrics.rowAt box index) =
      ⟨⟨box.min.x + 1, box.min.y + metrics.headerHeight + index * metrics.rowHeight⟩,
        ⟨box.max.x - 1, box.min.y + metrics.headerHeight + (index + 1) * metrics.rowHeight⟩⟩ := by
  rw [rowAt_eq, Scene.insetRow, Exact.one_eq]

theorem headerAt_eq (metrics : NodeMetrics ℚ) (box : Rect ℚ) :
    metrics.headerAt box = ⟨box.min, ⟨box.max.x, box.min.y + metrics.headerHeight⟩⟩ := by
  have corners : metrics.headerAt box =
      ⟨box.min, ⟨box.min.x + (box.max.x - box.min.x), box.min.y + metrics.headerHeight⟩⟩ := rfl
  rw [corners, add_sub_cancel]

section

variable {rows : Nat} (nonneg : metrics.Nonneg)
  (tall : box.max.y = box.min.y + metrics.classHeight rows)
include nonneg tall

theorem Nonneg.within_header : (metrics.headerAt box).Within box := by
  have below := nonneg.rows_nonneg rows
  have bottom := nonneg.bottomPadding
  rw [headerAt_eq]
  refine ⟨le_refl _, le_refl _, le_refl _, ?_⟩
  simp only [tall, classHeight, Exact.ofNat_eq]
  linarith

theorem Nonneg.rowAt_within {index : Nat} (shown : index < rows) :
    (metrics.rowAt box index).Within box := by
  have above := nonneg.rows_nonneg index
  have fits := nonneg.rows_le_rows shown
  have header := nonneg.headerHeight
  have bottom := nonneg.bottomPadding
  rw [rowAt_eq]
  refine ⟨le_refl _, le_refl _, ?_, ?_⟩
  · linarith
  · simp only [tall, classHeight, Exact.ofNat_eq]
    linarith

theorem Nonneg.within_row {index : Nat} (shown : index < rows) :
    (Scene.insetRow (metrics.rowAt box index)).Within box := by
  refine Rect.Within.trans ?_ (nonneg.rowAt_within tall shown)
  rw [insetRow_rowAt, rowAt_eq]
  constructor <;> simp

end

/-- Rows do not reach into the header. -/
theorem Nonneg.header_apart_row (nonneg : metrics.Nonneg) (index : Nat) :
    (metrics.headerAt box).Apart (Scene.insetRow (metrics.rowAt box index)) := by
  rw [headerAt_eq, insetRow_rowAt]
  right; right; left
  exact le_add_of_nonneg_right (nonneg.rows_nonneg index)

/-- Rows do not reach into each other. -/
theorem Nonneg.row_apart_row (nonneg : metrics.Nonneg) {first second : Nat}
    (different : first ≠ second) :
    (Scene.insetRow (metrics.rowAt box first)).Apart
      (Scene.insetRow (metrics.rowAt box second)) := by
  rw [insetRow_rowAt, insetRow_rowAt]
  rcases Nat.lt_or_gt_of_ne different with before | after
  · right; right; left
    exact add_le_add_right (nonneg.rows_le_rows before) _
  · right; right; right
    exact add_le_add_right (nonneg.rows_le_rows after) _

end NodeMetrics

/-! ## Maps that are laid out -/

variable [Approximations]

namespace Registry

/-- Every box has its size, and no two boxes have an inner point in common. -/
structure Arranged (reg : Registry ℚ) : Prop where
  coherent : reg.Coherent
  fitted : reg.FittedBut []
  nonneg : reg.metrics.Nonneg
  apart : ∀ first ∈ reg.classes.items, ∀ second ∈ reg.classes.items,
    first.id ≠ second.id → first.rect.Apart second.rect

/-- A class has the cell of its box. -/
theorem Laid.exists_cell {reg : Registry ℚ} {layouter : TreeLayouter ℚ}
    (laid : reg.Laid layouter.execute) (coherent : reg.Coherent) {node : ClassNode ℚ}
    (mem : node ∈ reg.classes.items) :
    ∃ cell, (⟨node.id, node.size.x, node.size.y⟩, cell) ∈ reg.layoutNodes.zip
        (TreeLayouter.grid reg.layoutNodes reg.layoutEdges) ∧
      node.rect = .ofPosSize
        (layouter.corner reg.layoutNodes reg.layoutEdges cell) node.size := by
  obtain ⟨box, cell, placed, boxId, position⟩ :=
    TreeLayouter.exists_cell_of_execute (laid.classes node mem)
  have boxEq : box = ⟨node.id, node.size.x, node.size.y⟩ := by
    have listed := List.of_mem_zip placed
    rw [layoutNodes, coherent.standalone_eq_nil (Store.key_mem_keys mem), List.map_nil,
      List.append_nil] at listed
    obtain ⟨owner, ownerMem, rfl⟩ := List.mem_map.mp listed.1
    rw [Store.eq_of_key_eq coherent.classKeys ownerMem mem boxId]
  subst boxEq
  exact ⟨cell, placed, by rw [ClassNode.rect, position, boxAt_eq]⟩

theorem Coherent.arranged_of_laid {reg : Registry ℚ} (coherent : reg.Coherent)
    (fitted : reg.FittedBut []) {layouter : TreeLayouter ℚ}
    (laid : reg.Laid layouter.execute) (nonneg : reg.metrics.Nonneg)
    (horizontal : 0 ≤ layouter.horizontalGap) (vertical : 0 ≤ layouter.verticalGap) :
    reg.Arranged := by
  refine ⟨coherent, fitted, nonneg, ?_⟩
  intro first firstMem second secondMem different
  obtain ⟨firstCell, firstPlaced, firstRect⟩ := laid.exists_cell coherent firstMem
  obtain ⟨secondCell, secondPlaced, secondRect⟩ := laid.exists_cell coherent secondMem
  have boxes : (⟨first.id, first.size.x, first.size.y⟩, firstCell) ≠
      ((⟨second.id, second.size.x, second.size.y⟩, secondCell) : LayoutNode ℚ × GridCell) := by
    intro same
    exact different (congrArg (fun entry => entry.1.id) same)
  have apart := TreeLayouter.apart_of_ne horizontal vertical firstPlaced secondPlaced boxes
  rw [firstRect, secondRect]
  exact apart

/-- A box is as high as its header and its visible rows need. -/
theorem FittedBut.tall {reg : Registry ℚ} (fitted : reg.FittedBut [])
    (coherent : reg.Coherent) {node : ClassNode ℚ} (mem : node ∈ reg.classes.items) :
    node.rect.max.y = node.rect.min.y +
      reg.metrics.classHeight (reg.visibleMethods node.id).length := by
  have size := (fitted node mem List.not_mem_nil).size
  have height : node.size.y =
      reg.metrics.classHeight (reg.visibleMethods node.id).length := by
    rw [size, visibleMethods_eq_shown coherent.classKeys mem]
    simp [NodeMetrics.boxSize]
  rw [← height]
  rfl

theorem minWidth_le_boxSize (metrics : NodeMetrics ℚ) (text : TextMetrics ℚ) (header : String)
    (rows : List String) : metrics.minWidth ≤ (metrics.boxSize text header rows).x := by
  have widest : Scalar.max (metrics.textWidth text header) metrics.minWidth ≤
      rows.foldl (fun width row => Scalar.max width (metrics.textWidth text row))
        (Scalar.max (metrics.textWidth text header) metrics.minWidth) := by
    apply le_foldl_of_grows
    intro width row
    rw [Exact.max_eq]
    exact le_max_left _ _
  have least : metrics.minWidth ≤ Scalar.max (metrics.textWidth text header) metrics.minWidth := by
    rw [Exact.max_eq]
    exact le_max_right _ _
  exact (least.trans widest).trans (Exact.le_ceil _)

/-- A box has the least width. -/
theorem FittedBut.wide {reg : Registry ℚ} (fitted : reg.FittedBut [])
    {node : ClassNode ℚ} (mem : node ∈ reg.classes.items) :
    reg.metrics.minWidth ≤ node.rect.max.x - node.rect.min.x := by
  have width : node.rect.max.x - node.rect.min.x = node.size.x := by
    change node.rect.min.x + node.size.x - node.rect.min.x = node.size.x
    rw [add_sub_cancel_left]
  rw [width, (fitted node mem List.not_mem_nil).size]
  exact minWidth_le_boxSize _ _ _ _

/-- What is picked at a point of the map. -/
def pickedAt (reg : Registry ℚ) (point : Vec ℚ) : Option Role :=
  ((HitTester.mk (Scene.ofRegistry reg).hitRegions).hitTest point).map Hit.role

namespace Arranged

variable {reg : Registry ℚ} {node : ClassNode ℚ} {role : Role} {area : Rect ℚ} {elevation : ℚ}

/-- All parts of a class lie in its box. -/
theorem within_of_part (arranged : reg.Arranged) (mem : node ∈ reg.classes.items)
    (part : reg.Part node role area elevation) : area.Within node.rect := by
  have tall := arranged.fitted.tall arranged.coherent mem
  cases part with
  | background => exact .refl node.rect
  | header => exact arranged.nonneg.within_header tall
  | row listed _ =>
    exact arranged.nonneg.within_row tall (List.getElem?_eq_some_iff.mp listed).1

theorem elevation_le (part : reg.Part node role area elevation) : elevation ≤ 1000 := by
  cases part <;> norm_num [Scene.nodeElevation, Scene.headerElevation, Scene.rowElevation]

section

variable (arranged : reg.Arranged) (mem : node ∈ reg.classes.items)
include arranged mem

/-- A part of a class is picked at a point if it is the highest part of the class
there: parts of other classes are elsewhere. -/
theorem pickedAt_of_part (part : reg.Part node role area elevation) {point : Vec ℚ}
    (inBox : node.rect.Inside point) (covers : area.contains point = true)
    (highest : ∀ {otherRole otherArea otherElevation},
      reg.Part node otherRole otherArea otherElevation →
      otherArea.contains point = true → elevation ≤ otherElevation → otherRole = role) :
    reg.pickedAt point = some role := by
  have noStandalone := arranged.coherent.standalone_eq_nil (Store.key_mem_keys mem)
  have listed := (arranged.coherent.mem_hitRegions_iff noStandalone).mpr
    ⟨node, mem, role, area, elevation, part, rfl⟩
  refine HitTester.role_hitTest_of_highest listed covers (elevation_le part) ?_
  intro other otherListed otherCovers higher
  obtain ⟨owner, ownerMem, otherRole, otherArea, otherElevation, otherPart, rfl⟩ :=
    (arranged.coherent.mem_hitRegions_iff noStandalone).mp otherListed
  by_cases same : node.id = owner.id
  · obtain rfl := Store.eq_of_key_eq arranged.coherent.classKeys mem ownerMem same
    exact highest otherPart otherCovers higher
  · have inOther := (arranged.within_of_part ownerMem otherPart).contains otherCovers
    exact absurd inOther (inBox.not_contains (arranged.apart node mem owner ownerMem same))

/-- Inside the drawn row of a visible method, the row is picked. -/
theorem pickedAt_row {method : Method} {index : Nat}
    (listed : (reg.visibleMethods node.id)[index]? = some method)
    (stands : reg.methodRowRect method.id = some (reg.metrics.rowAt node.rect index))
    {point : Vec ℚ} (inside : (Scene.insetRow (reg.metrics.rowAt node.rect index)).Inside point) :
    reg.pickedAt point = some (.methodRow node.id method.id) := by
  have part := Part.row listed stands
  refine arranged.pickedAt_of_part mem part
    ((arranged.within_of_part mem part).inside inside) inside.contains ?_
  intro otherRole otherArea otherElevation other covers higher
  cases other with
  | background => norm_num [Scene.rowElevation, Scene.nodeElevation] at higher
  | header => norm_num [Scene.rowElevation, Scene.headerElevation] at higher
  | @row otherMethod otherIndex otherListed _ =>
    by_cases same : index = otherIndex
    · subst same
      rw [Option.some.inj (listed.symm.trans otherListed)]
    · exact absurd covers (inside.not_contains (arranged.nonneg.row_apart_row same))

/-- Inside the header of a class, the header is picked. -/
theorem pickedAt_header {point : Vec ℚ} (inside : (reg.metrics.headerAt node.rect).Inside point) :
    reg.pickedAt point = some (.classHeader node.id) := by
  refine arranged.pickedAt_of_part mem .header
    ((arranged.within_of_part mem .header).inside inside) inside.contains ?_
  intro otherRole otherArea otherElevation other covers higher
  cases other with
  | background => norm_num [Scene.headerElevation, Scene.nodeElevation] at higher
  | header => rfl
  | @row _ index _ _ =>
    exact absurd covers (inside.not_contains (arranged.nonneg.header_apart_row index))

/-- Inside the box of a class, but off its header and its rows, the box is
picked. -/
theorem pickedAt_background {point : Vec ℚ} (inside : node.rect.Inside point)
    (offHeader : ¬ (reg.metrics.headerAt node.rect).contains point = true)
    (offRows : ∀ method ∈ reg.visibleMethods node.id, ∀ row,
      reg.methodRowRect method.id = some row → ¬ (Scene.insetRow row).contains point = true) :
    reg.pickedAt point = some (.classBackground node.id) := by
  refine arranged.pickedAt_of_part mem .background inside inside.contains ?_
  intro otherRole otherArea otherElevation other covers _
  cases other with
  | background => rfl
  | header => exact absurd covers offHeader
  | row listed stands =>
    exact absurd covers (offRows _ (List.mem_of_getElem? listed) _ stands)

/-- Rows have inner points, if boxes are wide enough for their drawn part. -/
theorem inside_center_row (wide : 2 < reg.metrics.minWidth) (high : 0 < reg.metrics.rowHeight)
    (index : Nat) :
    (Scene.insetRow (reg.metrics.rowAt node.rect index)).Inside
      (reg.metrics.rowAt node.rect index).center := by
  have width := arranged.fitted.wide mem
  rw [NodeMetrics.insetRow_rowAt, NodeMetrics.rowAt, Rect.center_ofPosSize]
  simp only [Rect.Inside, Rect.width, Exact.ofNat_eq]
  refine ⟨?_, ?_, ?_, ?_⟩ <;> linarith

end

end Arranged

end Registry

end Exact

end CodeAtlas
