import CodeAtlas.Proofs.Extent.Drawing
import CodeAtlas.Proofs.Picking
import CodeAtlas.Proofs.Registry.Standalone

/-!
# How far a map reaches

The least rectangle around the boxes of a map knows nothing of labels, lines and
arrowheads.  Labels stay on their boxes, which are made for them, but for a unit
or two of a row; the line of an edge leaves the boxes only for a loop; and an
arrowhead stays near the end of its line.  So everything on a map is drawn within
a known distance from the boxes.
-/

namespace CodeAtlas

/-! ## Pictures of slots -/

namespace Pool

variable {R : Type} {pool : Pool R} {id : ResourceId}

theorem Names.label_eq {bitmap other : LabelBitmap} (names : pool.Names id (.label bitmap))
    (found : pool.label? id = some other) : other = bitmap := by
  unfold label? at found
  split at found
  · next live =>
      obtain rfl := Option.some.inj found
      exact Resource.label.inj (names.only _ live)
  · cases found

theorem Names.shape_eq {points other : List (Vec R)} (names : pool.Names id (.shape points))
    (found : pool.shape? id = some other) : other = points := by
  unfold shape? at found
  split at found
  · next live =>
      obtain rfl := Option.some.inj found
      exact Resource.shape.inj (names.only _ live)
  · cases found

end Pool

variable [Approximations]

/-! ## Room for texts -/

/-- Plates fit into headers, rows and boxes. -/
structure NodeMetrics.Legible (metrics : NodeMetrics ℚ) (text : TextMetrics ℚ) : Prop where
  header : (text.plateHeight : ℚ) ≤ metrics.headerHeight
  row : (text.plateHeight : ℚ) ≤ metrics.rowHeight
  standalone : (text.plateHeight : ℚ) ≤ metrics.standaloneHeight
  bottomPadding : 0 ≤ metrics.bottomPadding
  minWidth : 2 ≤ metrics.minWidth

namespace NodeMetrics

variable {metrics : NodeMetrics ℚ} {text : TextMetrics ℚ}

theorem Legible.nonneg (legible : metrics.Legible text) : metrics.Nonneg where
  headerHeight := (Nat.cast_nonneg _).trans legible.header
  rowHeight := (Nat.cast_nonneg _).trans legible.row
  bottomPadding := legible.bottomPadding

/-- A plate on a box fits where there is room for its text. -/
theorem Legible.width_nameplate (legible : metrics.Legible text) {shown : String} {width : ℚ}
    (room : Scalar.ceil (metrics.textWidth text shown) ≤ width) (least : metrics.minWidth ≤ width) :
    ((text.rasterize shown metrics.labelStyle).size : Vec ℚ).x ≤ width := by
  rw [TextMetrics.size_rasterize]
  apply TextMetrics.plateWidth_le_of_room
  · rw [textWidth, Exact.two_eq] at room
    exact room
  · have := legible.minWidth
    linarith

theorem height_nameplate (shown : String) :
    ((text.rasterize shown metrics.labelStyle).size : Vec ℚ).y = text.plateHeight := by
  rw [TextMetrics.size_rasterize]

section

variable (metrics) (text)

/-- The box of a class has room for its header. -/
theorem header_le_boxSize (header : String) (rows : List String) :
    Scalar.ceil (metrics.textWidth text header) ≤ (metrics.boxSize text header rows).x := by
  apply Exact.ceil_mono
  have start : metrics.textWidth text header ≤
      Scalar.max (metrics.textWidth text header) metrics.minWidth := by
    rw [Exact.max_eq]
    exact le_max_left _ _
  apply start.trans
  apply le_foldl_of_grows
  intro width row
  rw [Exact.max_eq]
  exact le_max_left _ _

/-- The box of a class has room for its rows. -/
theorem row_le_boxSize (header : String) {rows : List String} {row : String} (mem : row ∈ rows) :
    Scalar.ceil (metrics.textWidth text row) ≤ (metrics.boxSize text header rows).x := by
  apply Exact.ceil_mono
  apply le_foldl_of_mem _ mem
  · intro width
    rw [Exact.max_eq]
    exact le_max_right _ _
  · intro width other
    rw [Exact.max_eq]
    exact le_max_left _ _

theorem text_le_standaloneSize (shown : String) :
    Scalar.ceil (metrics.textWidth text shown) ≤ (metrics.standaloneSize text shown).x := by
  apply Exact.ceil_mono
  rw [Exact.max_eq]
  exact le_max_left _ _

theorem minWidth_le_standaloneSize (shown : String) :
    metrics.minWidth ≤ (metrics.standaloneSize text shown).x := by
  have least : metrics.minWidth ≤ Scalar.max (metrics.textWidth text shown) metrics.minWidth := by
    rw [Exact.max_eq]
    exact le_max_right _ _
  exact least.trans (Exact.le_ceil _)

end

end NodeMetrics

/-! ## Boxes -/

/-- The outline of a box stays in the box. -/
theorem Scene.contains_outlineAt (bounded : Approximations.Bounded) {pool : Pool ℚ}
    {outline : Option ResourceId} {metrics : NodeMetrics ℚ} {corner size : Vec ℚ}
    (proper : (Rect.ofPosSize corner size).Proper)
    (drawn : ∀ id ∈ outline, pool.Names id (.shape (metrics.outline size))) :
    ∀ point ∈ Scene.outlineAt pool outline (.ofPosSize corner size) metrics,
      (Rect.ofPosSize corner size).contains point = true := by
  unfold Scene.outlineAt
  cases found : outline.bind pool.shape? with
  | none => exact Outline.contains_rounded bounded proper _ _
  | some points =>
    rcases Option.bind_eq_some_iff.mp found with ⟨id, isOutline, live⟩
    obtain rfl := (drawn id isOutline).shape_eq live
    have width : 0 ≤ size.x := (le_add_iff_nonneg_right _).mp proper.wide
    have height : 0 ≤ size.y := (le_add_iff_nonneg_right _).mp proper.high
    intro point mem
    rcases List.mem_map.mp mem with ⟨inner, innerMem, rfl⟩
    have atOrigin := Outline.contains_rounded bounded
      (Rect.proper_ofPosSize Vec.zero width height) _ _ inner innerMem
    rcases Rect.contains_iff.mp atOrigin with ⟨left, right, top, bottom⟩
    have origin : (Vec.zero : Vec ℚ) = ⟨0, 0⟩ := by simp [Vec.zero]
    rw [origin] at left right top bottom
    change 0 ≤ inner.x at left
    change inner.x ≤ 0 + size.x at right
    change 0 ≤ inner.y at top
    change inner.y ≤ 0 + size.y at bottom
    have moved : inner + (Rect.ofPosSize corner size).min =
        ⟨inner.x + corner.x, inner.y + corner.y⟩ := rfl
    have far : (Rect.ofPosSize corner size).max = ⟨corner.x + size.x, corner.y + size.y⟩ := rfl
    have near : (Rect.ofPosSize corner size).min = corner := rfl
    rw [moved, Rect.contains_iff, far, near]
    exact ⟨by linarith, by linarith, by linarith, by linarith⟩

namespace Registry

variable {reg : Registry ℚ} {shown : Option (SequenceView ℚ)}

/-! ## Classes -/

section

variable (reachable : reg.Reachable shown) (legible : reg.metrics.Legible reg.text)
include reachable legible

/-- The box of a class has room for its header and its rows. -/
theorem Reachable.class_room {node : ClassNode ℚ} (mem : node ∈ reg.classes.items) :
    node.rect.Proper ∧ reg.metrics.minWidth ≤ node.rect.width ∧
      Scalar.ceil (reg.metrics.textWidth reg.text node.headerText) ≤ node.rect.width ∧
      ∀ method ∈ reg.visibleMethods node.id,
        Scalar.ceil (reg.metrics.textWidth reg.text method.labelText) ≤
          node.rect.width := by
  have fits := reachable.fitted node mem List.not_mem_nil
  have width : node.rect.width = node.size.x := add_sub_cancel_left _ _
  have least := reachable.fitted.wide mem
  have tall := reachable.fitted.tall reachable.coherent mem
  have below := legible.nonneg.rows_nonneg (reg.visibleMethods node.id).length
  refine ⟨⟨?_, ?_⟩, least, ?_, ?_⟩
  · have := legible.minWidth
    linarith
  · have header := legible.nonneg.headerHeight
    have bottom := legible.bottomPadding
    rw [tall, NodeMetrics.classHeight, Exact.ofNat_eq]
    linarith
  · rw [width, fits.size]
    exact NodeMetrics.header_le_boxSize _ _ _ _
  · intro method visible
    rw [visibleMethods_eq_shown reachable.coherent.classKeys mem] at visible
    rw [width, fits.size]
    exact NodeMetrics.row_le_boxSize _ _ _ (List.mem_map_of_mem visible)

/-- The header of a class stays at its box. -/
theorem Reachable.staysIn_classHeader (bounded : Approximations.Bounded) {node : ClassNode ℚ}
    (mem : node ∈ reg.classes.items) :
    ∀ primitive ∈ Scene.classHeader reg node, primitive.StaysIn (node.rect.expand 2) := by
  rcases reachable.class_room legible mem with ⟨proper, least, room, _⟩
  have within := legible.nonneg.within_header (reachable.fitted.tall reachable.coherent mem)
  have headerAt := NodeMetrics.headerAt_eq reg.metrics node.rect
  have headerProper : (reg.metrics.headerAt node.rect).Proper := by
    rw [headerAt]
    exact ⟨proper.wide, le_add_of_nonneg_right legible.nonneg.headerHeight⟩
  intro primitive part
  rw [Scene.classHeader, reachable.coherent.headerRect_eq mem] at part
  rcases List.mem_cons.mp part with rfl | label
  · intro corner isCorner
    apply (within.trans (node.rect.within_expand zero_le_two)).contains
    exact Outline.contains_rounded bounded headerProper _ _ corner isCorner
  · have plate : primitive.StaysIn ((reg.metrics.headerAt node.rect).expand 0) := by
      refine Scene.staysIn_label (le_refl 0) ?_ _ _ primitive label
      intro id isLabel bitmap found
      obtain rfl := (reachable.depicted.headers node mem id isLabel).label_eq found
      rw [add_zero, add_zero, headerAt]
      constructor
      · exact legible.width_nameplate room least
      · rw [NodeMetrics.height_nameplate, Rect.height, add_sub_cancel_left]
        exact legible.header
    exact plate.mono (within.expand zero_le_two)

/-- A row of a class stays at its box. -/
theorem Reachable.staysIn_methodRow {node : ClassNode ℚ} (mem : node ∈ reg.classes.items)
    {method : Method} (visible : method ∈ reg.visibleMethods node.id) :
    ∀ primitive ∈ Scene.methodRow reg node method,
      primitive.StaysIn (node.rect.expand 2) := by
  rcases reachable.class_room legible mem with ⟨proper, least, _, room⟩
  have minWidth := legible.minWidth
  rcases reachable.coherent.exists_row mem visible with ⟨index, listed, stands⟩
  have within := legible.nonneg.within_row (reachable.fitted.tall reachable.coherent mem)
    (List.getElem?_eq_some_iff.mp listed).1
  have inset := NodeMetrics.insetRow_rowAt reg.metrics node.rect index
  have rowNonneg := legible.nonneg.rowHeight
  intro primitive part
  rw [Scene.methodRow, stands] at part
  rcases List.mem_cons.mp part with rfl | label
  · refine Scene.staysIn_of_within rfl ?_ (within.trans (node.rect.within_expand zero_le_two))
    rw [inset]
    rw [Rect.width] at least
    exact ⟨by linarith, by dsimp only; linarith⟩
  · have plate : primitive.StaysIn
        ((Scene.insetRow (reg.metrics.rowAt node.rect index)).expand 2) := by
      refine Scene.staysIn_label zero_le_two ?_ _ _ primitive label
      intro id isLabel bitmap found
      have methodMem := (reachable.coherent.mem_methodsOf_iff.mp (List.mem_filter.mp visible).1).1
      obtain rfl := (reachable.depicted.rows method methodMem id isLabel).label_eq found
      have fits := legible.width_nameplate (room method visible) least
      rw [inset]
      constructor
      · rw [Rect.width] at fits ⊢
        linarith
      · rw [NodeMetrics.height_nameplate, Rect.height]
        have row := legible.row
        dsimp only
        linarith
    exact plate.mono (within.expand (le_refl 2))

/-- All of a class stays at its box. -/
theorem Reachable.staysIn_classBox (bounded : Approximations.Bounded) {node : ClassNode ℚ}
    (mem : node ∈ reg.classes.items) :
    ∀ primitive ∈ Scene.classBox reg node, primitive.StaysIn (node.rect.expand 2) := by
  rcases reachable.class_room legible mem with ⟨proper, _⟩
  intro primitive part
  rcases List.mem_cons.mp part with rfl | inner
  · intro corner isCorner
    apply (node.rect.within_expand zero_le_two).contains
    exact Scene.contains_outlineAt bounded proper (reachable.depicted.outlines node mem) corner
      isCorner
  · rcases List.mem_append.mp inner with header | rows
    · exact reachable.staysIn_classHeader legible bounded mem primitive header
    · rcases List.mem_flatMap.mp rows with ⟨method, visible, row⟩
      exact reachable.staysIn_methodRow legible mem visible primitive row

end

/-! ## Standalone nodes -/

/-- The box of a standalone node has room for its text. -/
theorem Reachable.standalone_room (reachable : reg.Reachable shown)
    (legible : reg.metrics.Legible reg.text) {node : StandaloneNode ℚ}
    (mem : node ∈ reg.standalone.items) :
    node.rect.Proper ∧ reg.metrics.minWidth ≤ node.rect.width ∧
      Scalar.ceil (reg.metrics.textWidth reg.text node.boxText) ≤ node.rect.width ∧
      (reg.text.plateHeight : ℚ) ≤ node.rect.height := by
  have size := (reachable.housed node mem).size
  have width : node.rect.width = node.size.x := add_sub_cancel_left _ _
  have height : node.rect.height = node.size.y := add_sub_cancel_left _ _
  have least : reg.metrics.minWidth ≤ node.rect.width := by
    rw [width, size]
    exact NodeMetrics.minWidth_le_standaloneSize _ _ _
  have high : (reg.text.plateHeight : ℚ) ≤ node.rect.height := by
    rw [height, size]
    exact legible.standalone
  refine ⟨⟨?_, ?_⟩, least, ?_, high⟩
  · have minWidth := legible.minWidth
    rw [Rect.width] at least
    linarith
  · exact sub_nonneg.mp ((Nat.cast_nonneg _).trans high)
  · rw [width, size]
    exact NodeMetrics.text_le_standaloneSize _ _ _

/-- All of a standalone node stays at its box. -/
theorem Reachable.staysIn_standalone (reachable : reg.Reachable shown)
    (legible : reg.metrics.Legible reg.text) (bounded : Approximations.Bounded)
    {node : StandaloneNode ℚ} (mem : node ∈ reg.standalone.items) :
    ∀ primitive ∈ Scene.standalone reg node, primitive.StaysIn (node.rect.expand 2) := by
  have boxes := reachable.housed node mem
  rcases reachable.standalone_room legible mem with ⟨proper, least, room, high⟩
  intro primitive part
  rcases List.mem_cons.mp part with rfl | label
  · intro corner isCorner
    apply (node.rect.within_expand zero_le_two).contains
    exact Scene.contains_outlineAt bounded proper boxes.outline corner isCorner
  · have plate : primitive.StaysIn (node.rect.expand 0) := by
      refine Scene.staysIn_label (le_refl 0) ?_ _ _ primitive label
      intro id isLabel bitmap found
      obtain rfl := (boxes.label id isLabel).label_eq found
      rw [add_zero, add_zero, NodeMetrics.height_nameplate]
      exact ⟨legible.width_nameplate room least, high⟩
    exact plate.mono ((Rect.Within.refl _).expand zero_le_two)

/-! ## The least rectangle around all boxes -/

theorem exists_bounds_of_mem (reg : Registry ℚ) {rect : Rect ℚ}
    (mem : rect ∈ reg.classes.items.map ClassNode.rect ++
      reg.standalone.items.map StandaloneNode.rect) :
    ∃ around, reg.bounds = some around ∧ rect.Within around := by
  rcases Rect.exists_unionAll (List.ne_nil_of_mem mem) with ⟨around, bounds⟩
  exact ⟨around, bounds, Rect.within_of_unionAll bounds rect mem⟩

/-- The box of a class lies in the least rectangle around all boxes. -/
theorem exists_bounds_class (reg : Registry ℚ) {node : ClassNode ℚ}
    (mem : node ∈ reg.classes.items) :
    ∃ around, reg.bounds = some around ∧ node.rect.Within around :=
  reg.exists_bounds_of_mem (List.mem_append_left _ (List.mem_map_of_mem mem))

/-- The box of a standalone node lies in the least rectangle around all boxes. -/
theorem exists_bounds_standalone (reg : Registry ℚ) {node : StandaloneNode ℚ}
    (mem : node ∈ reg.standalone.items) :
    ∃ around, reg.bounds = some around ∧ node.rect.Within around :=
  reg.exists_bounds_of_mem (List.mem_append_right _ (List.mem_map_of_mem mem))

theorem Reachable.bounds_proper (reachable : reg.Reachable shown)
    (legible : reg.metrics.Legible reg.text) {around : Rect ℚ}
    (bounds : reg.bounds = some around) : around.Proper := by
  apply Rect.proper_of_unionAll bounds
  intro rect mem
  rcases List.mem_append.mp mem with boxes | boxes
  · rcases List.mem_map.mp boxes with ⟨node, nodeMem, rfl⟩
    exact (reachable.class_room legible nodeMem).1
  · rcases List.mem_map.mp boxes with ⟨node, nodeMem, rfl⟩
    exact (reachable.standalone_room legible nodeMem).1

/-- Edges attach within the least rectangle around all boxes. -/
theorem Reachable.attaches_within (reachable : reg.Reachable shown)
    (legible : reg.metrics.Legible reg.text) {id : NodeId} {rect : Rect ℚ}
    (attaches : reg.Attaches id rect) :
    rect.Proper ∧ ∃ around, reg.bounds = some around ∧ rect.Within around := by
  cases attaches with
  | classBox mem => exact ⟨(reachable.class_room legible mem).1, reg.exists_bounds_class mem⟩
  | standaloneBox mem =>
    exact ⟨(reachable.standalone_room legible mem).1, reg.exists_bounds_standalone mem⟩
  | @row method node above below _ _ owner _ _ rows =>
    have proper := (reachable.class_room legible owner).1
    rcases reg.exists_bounds_class owner with ⟨around, bounds, within⟩
    have listed : above.length < (reg.visibleMethods node.id).length := by
      rw [rows]
      simp
    have inBox := legible.nonneg.rowAt_within (reachable.fitted.tall reachable.coherent owner)
      listed
    exact ⟨Rect.proper_ofPosSize _ (sub_nonneg.mpr proper.wide) legible.nonneg.rowHeight,
      around, bounds, inBox.trans within⟩
  | header _ _ owner =>
    have proper := (reachable.class_room legible owner).1
    rcases reg.exists_bounds_class owner with ⟨around, bounds, within⟩
    have inBox := legible.nonneg.within_header (reachable.fitted.tall reachable.coherent owner)
    exact ⟨Rect.proper_ofPosSize _ (sub_nonneg.mpr proper.wide) legible.nonneg.headerHeight,
      around, bounds, inBox.trans within⟩

end Registry

/-! ## Edges -/

/-- The line of an edge stays between the boxes, but for a loop. -/
theorem contains_routeEdge {around source target : Rect ℚ} (sourceProper : source.Proper)
    (targetProper : target.Proper) (sourceWithin : source.Within around)
    (targetWithin : target.Within around) (sameOwner : Bool) :
    ∀ point ∈ routeEdge source target sameOwner, (around.expand 24).contains point = true := by
  have wider : around.Within (around.expand 24) := around.within_expand (by norm_num)
  have fromSource : ∀ point, source.contains point = true →
      (around.expand 24).contains point = true :=
    fun point inside => (sourceWithin.trans wider).contains inside
  have fromTarget : ∀ point, target.contains point = true →
      (around.expand 24).contains point = true :=
    fun point inside => (targetWithin.trans wider).contains inside
  unfold routeEdge
  split
  · have start := sourceWithin.contains sourceProper.contains_rightCenter
    have finish := targetWithin.contains targetProper.contains_rightCenter
    rcases Rect.contains_iff.mp start with ⟨left, right, top, bottom⟩
    rcases Rect.contains_iff.mp finish with ⟨_, right', top', bottom'⟩
    have reach : around.min.x ≤ max source.rightCenter.x target.rightCenter.x ∧
        max source.rightCenter.x target.rightCenter.x ≤ around.max.x :=
      ⟨le_max_of_le_left left, max_le right right'⟩
    have bend : ∀ y, around.min.y ≤ y → y ≤ around.max.y → (around.expand 24).contains
        ⟨max source.rightCenter.x target.rightCenter.x + 24.0, y⟩ = true := by
      intro y above below
      rw [show (24.0 : ℚ) = 24 by norm_num, Rect.contains_iff, Rect.expand]
      dsimp only
      exact ⟨by linarith, by linarith, by linarith, by linarith⟩
    simp [fromSource _ sourceProper.contains_rightCenter, bend _ top bottom, bend _ top' bottom',
      fromTarget _ targetProper.contains_rightCenter]
  · split
    · simp [fromSource _ sourceProper.contains_rightCenter,
        fromTarget _ targetProper.contains_leftCenter]
    · split
      · simp [fromSource _ sourceProper.contains_leftCenter,
          fromTarget _ targetProper.contains_rightCenter]
      · split
        · simp [fromSource _ sourceProper.contains_bottomCenter,
            fromTarget _ targetProper.contains_topCenter]
        · simp [fromSource _ sourceProper.contains_topCenter,
            fromTarget _ targetProper.contains_bottomCenter]

omit [Approximations] in
theorem Scene.mem_of_lastTwo? {points : List (Vec ℚ)} {start tip : Vec ℚ}
    (ends : Scene.lastTwo? points = some (start, tip)) : tip ∈ points := by
  unfold Scene.lastTwo? at ends
  split at ends
  · next reversed =>
      rcases Prod.mk.inj (Option.some.inj ends) with ⟨_, rfl⟩
      exact List.mem_reverse.mp (reversed ▸ List.mem_cons_self)
  · cases ends

namespace Registry

variable {reg : Registry ℚ} {shown : Option (SequenceView ℚ)}

section

variable {layouter : Layouter ℚ} {around : Rect ℚ} (reachable : reg.Reachable shown)
  (legible : reg.metrics.Legible reg.text) (bounded : Approximations.Bounded)
  (laid : reg.Laid layouter) (bounds : reg.bounds = some around)
include reachable legible bounded laid bounds

/-- The line of an edge and its arrowhead stay near the boxes. -/
theorem Reachable.staysIn_edge {edge : Edge} (mem : edge ∈ reg.edges.items) :
    ∀ primitive ∈ Scene.edge reg edge, primitive.StaysIn (around.expand 38) := by
  rcases reachable.coherent.exists_route mem with
      ⟨source, target, sourceBox, targetBox, sourceAnchored, targetAnchored, route⟩
  rcases reachable.attaches_within legible sourceAnchored.attaches with
      ⟨sourceProper, _, sourceBounds, sourceWithin⟩
  rcases reachable.attaches_within legible targetAnchored.attaches with
      ⟨targetProper, _, targetBounds, targetWithin⟩
  obtain rfl := Option.some.inj (bounds.symm.trans sourceBounds)
  obtain rfl := Option.some.inj (bounds.symm.trans targetBounds)
  rcases laid.routes edge mem with ⟨points, geometry, routed, drawn, names⟩
  obtain rfl := Option.some.inj (route.symm.trans routed)
  have line := contains_routeEdge sourceProper targetProper sourceWithin targetWithin
    (sourceBox == targetBox)
  have near : (around.expand 24).Within (around.expand 38) :=
    (Rect.Within.refl around).expand (by norm_num)
  intro primitive part
  unfold Scene.edge at part
  rw [Registry.edgePath, drawn] at part
  cases found : reg.pool.shape? geometry with
  | none =>
    rw [Option.bind_some, found] at part
    cases part
  | some path =>
    obtain rfl := names.shape_eq found
    rw [Option.bind_some, found] at part
    dsimp only at part
    split at part
    · next start tip _ ends =>
        rcases List.mem_pair.mp part with rfl | rfl
        · exact fun corner isCorner => near.contains (line corner isCorner)
        · intro corner isCorner
          have tipIn := line tip (Scene.mem_of_lastTwo? ends)
          have headIn := contains_arrowhead bounded tipIn start (by norm_num) (by norm_num) corner
            isCorner
          exact (around.expand_expand_within (by norm_num)).contains headIn
    · obtain rfl := List.mem_singleton.mp part
      exact fun corner isCorner => near.contains (line corner isCorner)

/-- Everything on a map is drawn within 38 units from its boxes. -/
theorem Reachable.staysIn_ofRegistry :
    ∀ primitive ∈ (Scene.ofRegistry reg).primitives,
      primitive.StaysIn (around.expand 38) := by
  intro primitive part
  rcases List.mem_append.mp part with others | classes
  · rcases List.mem_append.mp others with edges | standalone
    · rcases List.mem_flatMap.mp edges with ⟨edge, mem, drawn⟩
      exact reachable.staysIn_edge legible bounded laid bounds mem primitive drawn
    · rcases List.mem_flatMap.mp standalone with ⟨node, mem, drawn⟩
      rcases reg.exists_bounds_standalone mem with ⟨_, sameBounds, within⟩
      obtain rfl := Option.some.inj (bounds.symm.trans sameBounds)
      exact (reachable.staysIn_standalone legible bounded mem primitive drawn).mono
        (within.expand (by norm_num))
  · rcases List.mem_flatMap.mp classes with ⟨node, mem, drawn⟩
    rcases reg.exists_bounds_class mem with ⟨_, sameBounds, within⟩
    obtain rfl := Option.some.inj (bounds.symm.trans sameBounds)
    exact (reachable.staysIn_classBox legible bounded mem primitive drawn).mono
      (within.expand (by norm_num))

end

end Registry

end CodeAtlas
