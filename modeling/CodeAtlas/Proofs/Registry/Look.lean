import CodeAtlas.Proofs.Registry.Placement
import CodeAtlas.Proofs.Registry.Refresh
import CodeAtlas.Proofs.Renumber.Basic

/-!
# What a map looks like

Which rows are shown, their texts, the sizes and places of boxes and the lines of
edges all follow from the bare map, once it is up to date and laid out.  So two
maps that are alike when bare look alike, whatever has been done to them in
between.  Only the numbers of resources may differ, and what hidden rows keep from
when they were shown.
-/

namespace CodeAtlas

variable {R : Type} [Scalar R] {reg : Registry R}

/-- A class without its place and the numbers of its label and outline. -/
def ClassNode.plain (node : ClassNode R) : ClassNode R :=
  { node with position := .zero, headerLabel := none, outline := none }

/-- A method without its label. -/
def Method.plain (method : Method) : Method :=
  { method with label := none, labelText := "" }

theorem Method.owner_and_visible_of_plain_eq {row other : Method} (same : other.plain = row.plain) :
    other.classId = row.classId ∧ other.visible = row.visible := by
  have owner := congrArg Method.classId same
  have visible := congrArg Method.visible same
  exact ⟨owner, visible⟩

theorem ClassNode.parts_of_bare_eq {node box : ClassNode R} (same : box.bare = node.bare) :
    box.id = node.id ∧ box.methods = node.methods ∧ box.headerText = node.headerText := by
  have id := congrArg ClassNode.id same
  have methods := congrArg ClassNode.methods same
  have header := congrArg ClassNode.headerText same
  exact ⟨id, methods, header⟩

/-- What a view decides of each thing it decides of whole lists. -/
theorem map_eq_map_of_map_eq {α β γ : Type} {view : α → β} {part otherPart : α → γ}
    {items others : List α} (same : others.map view = items.map view)
    (decides : ∀ other ∈ others, ∀ item ∈ items, view other = view item →
      otherPart other = part item) :
    others.map otherPart = items.map part := by
  induction others generalizing items with
  | nil =>
    rw [List.map_nil, eq_comm, List.map_eq_nil_iff] at same
    rw [same]
    rfl
  | cons other rest ih =>
    cases items with
    | nil => simp at same
    | cons item more =>
      obtain ⟨first, later⟩ := List.cons.inj same
      rw [List.map_cons, List.map_cons,
        decides other List.mem_cons_self item List.mem_cons_self first,
        ih later fun other mem item itemMem =>
          decides other (List.mem_cons_of_mem _ mem) item (List.mem_cons_of_mem _ itemMem)]

namespace Registry

/-- What is seen of a row: all of it but the number of its label, and the picture
that the label stands for. -/
def rowLook (reg : Registry R) (row : Method) : Method × Option LabelBitmap :=
  ({ row with label := none }, row.label.bind reg.pool.label?)

/-- What is seen of a box wherever it is: all of it but numbers, the picture of its
header, and its outline. -/
def boxLook (reg : Registry R) (node : ClassNode R) :
    ClassNode R × Option LabelBitmap × Option (List (Vec R)) :=
  (node.plain, node.headerLabel.bind reg.pool.label?, node.outline.bind reg.pool.shape?)

/-- Two maps show the same: the same things come in the same order, boxes have the
same sizes, headers and outlines and show the same rows with the same texts and
pictures. -/
structure ShowsSame (reg other : Registry R) : Prop where
  classes : other.classes.items.map other.boxLook = reg.classes.items.map reg.boxLook
  methods : other.methods.items.map Method.plain = reg.methods.items.map Method.plain
  rows : ∀ classId, (other.visibleMethods classId).map other.rowLook =
    (reg.visibleMethods classId).map reg.rowLook
  standalone : other.standalone.items.map StandaloneNode.bare =
    reg.standalone.items.map StandaloneNode.bare
  edges : other.edges.items.map Edge.bare = reg.edges.items.map Edge.bare

/-- Two maps show the same things in the same places: boxes have the same positions,
and edges the same lines. -/
structure PlacedSame (reg other : Registry R) : Prop where
  classes : other.classes.items.map ClassNode.position =
    reg.classes.items.map ClassNode.position
  standalone : other.standalone.items.map StandaloneNode.position =
    reg.standalone.items.map StandaloneNode.position
  routes : other.edges.items.map other.edgePath = reg.edges.items.map reg.edgePath

/-! ## What lines depend on -/

section Anchors

variable {reg other : Registry R}
  (classes : ∀ id, (other.classes.get? id).map ClassNode.rect =
    (reg.classes.get? id).map ClassNode.rect)
  (standalone : other.standalone = reg.standalone)
  (methods : ∀ id, (other.methods.get? id).map Method.plain =
    (reg.methods.get? id).map Method.plain)
  (rows : ∀ id, (other.visibleMethods id).map Method.id = (reg.visibleMethods id).map Method.id)
  (metrics : other.metrics = reg.metrics)

include classes methods rows metrics in
/-- Where rows are follows from the boxes and from what they show. -/
theorem methodRowRect_congr (id : NodeId) :
    other.methodRowRect id = reg.methodRowRect id := by
  have index : ∀ shown : List Method, shown.findIdx? (fun row => row.id == id) =
      (shown.map Method.id).findIdx? (· == id) := by
    intro shown
    rw [List.findIdx?_map]
    rfl
  have methodEq := methods id
  unfold methodRowRect
  cases found : reg.methods.get? id with
  | none =>
    rw [found, Option.map_none, Option.map_eq_none_iff] at methodEq
    rw [methodEq]
    rfl
  | some method =>
    rw [found, Option.map_some] at methodEq
    obtain ⟨row, rowFound, same⟩ := Option.map_eq_some_iff.mp methodEq
    obtain ⟨owner, visible⟩ := Method.owner_and_visible_of_plain_eq same
    have ownerEq := classes method.classId
    simp only [rowFound, Option.bind_eq_bind, Option.bind_some, visible, owner, index, rows,
      metrics]
    cases ownerFound : reg.classes.get? method.classId with
    | none =>
      rw [ownerFound, Option.map_none, Option.map_eq_none_iff] at ownerEq
      rw [ownerEq]
    | some node =>
      rw [ownerFound, Option.map_some] at ownerEq
      obtain ⟨box, boxFound, rect⟩ := Option.map_eq_some_iff.mp ownerEq
      simp only [boxFound, Option.bind_some, rect]

include classes metrics in
theorem headerRect_congr (id : NodeId) : other.headerRect id = reg.headerRect id := by
  have split : ∀ map : Registry R, map.headerRect id =
      ((map.classes.get? id).map ClassNode.rect).map fun rect =>
        .ofPosSize rect.min ⟨rect.width, map.metrics.headerHeight⟩ := by
    intro map
    rw [headerRect, Option.map_map]
    rfl
  rw [split other, split reg, classes, metrics]

include classes standalone methods rows metrics in
theorem anchorRect_congr (id : NodeId) : other.anchorRect id = reg.anchorRect id := by
  have classEq := classes id
  have methodEq := methods id
  unfold anchorRect
  rw [standalone, methodRowRect_congr classes methods rows metrics]
  cases found : reg.classes.get? id with
  | some node =>
    rw [found, Option.map_some] at classEq
    obtain ⟨box, boxFound, rect⟩ := Option.map_eq_some_iff.mp classEq
    simp only [boxFound, rect]
  | none =>
    rw [found, Option.map_none, Option.map_eq_none_iff] at classEq
    rw [classEq]
    cases reg.standalone.get? id with
    | some node => rfl
    | none =>
      cases methodFound : reg.methods.get? id with
      | none =>
        rw [methodFound, Option.map_none, Option.map_eq_none_iff] at methodEq
        rw [methodEq]
      | some method =>
        rw [methodFound, Option.map_some] at methodEq
        obtain ⟨row, rowFound, same⟩ := Option.map_eq_some_iff.mp methodEq
        obtain ⟨owner, _⟩ := Method.owner_and_visible_of_plain_eq same
        simp only [rowFound, owner, headerRect_congr classes metrics]

end Anchors

/-! ## Pictures and lines of a map that is up to date -/

theorem Reachable.picture_of_row {drawn : Option (SequenceView R)}
    (reachable : reg.Reachable drawn) {row : Method} (mem : row ∈ reg.methods.items)
    (visible : row.visible = true) :
    row.label.bind reg.pool.label? =
      some (reg.text.rasterize row.labelText reg.metrics.labelStyle) := by
  obtain ⟨owner, ownerMem, ownerId, _⟩ := reachable.coherent.owner row mem
  have labelled := ((reachable.row_current ownerMem mem ownerId.symm).labelled visible).1
  obtain ⟨label, labelEq⟩ := Option.isSome_iff_exists.mp labelled
  have slotMem : (label, ResourceKind.label) ∈ reg.slots :=
    mem_slots_of_method mem (Slot.mem_filled_iff.mpr ⟨labelEq, rfl⟩)
  rw [labelEq]
  exact Pool.Holds.label?_of_names reachable.balanced
    (reachable.depicted.rows row mem label labelEq) (List.mem_append_left _ slotMem)

theorem Reachable.picture_of_header {drawn : Option (SequenceView R)}
    (reachable : reg.Reachable drawn) {node : ClassNode R}
    (mem : node ∈ reg.classes.items) :
    node.headerLabel.bind reg.pool.label? =
      some (reg.text.rasterize node.headerText reg.metrics.labelStyle) := by
  obtain ⟨label, labelEq⟩ :=
    Option.isSome_iff_exists.mp (reachable.settled.boxes node mem List.not_mem_nil).1
  have slotMem : (label, ResourceKind.label) ∈ reg.slots := mem_slots_of_class mem
    (List.mem_append_left _ (Slot.mem_filled_iff.mpr ⟨labelEq, rfl⟩))
  rw [labelEq]
  exact Pool.Holds.label?_of_names reachable.balanced
    (reachable.depicted.headers node mem label labelEq) (List.mem_append_left _ slotMem)

theorem Reachable.outline_of_box {drawn : Option (SequenceView R)}
    (reachable : reg.Reachable drawn) {node : ClassNode R}
    (mem : node ∈ reg.classes.items) :
    node.outline.bind reg.pool.shape? = some (reg.metrics.outline node.size) := by
  obtain ⟨outline, outlined, drawnShape⟩ := reachable.exists_outline mem
  rw [outlined]
  exact drawnShape

/-- The line of an edge is the one between its ends as they stand. -/
theorem Laid.edgePath_eq {layouter : Layouter R} {lent : List Slot} (laid : reg.Laid layouter)
    (balanced : reg.Balanced lent) {edge : Edge}
    (mem : edge ∈ reg.edges.items) : reg.edgePath edge = reg.route edge := by
  obtain ⟨points, geometry, routed, drawn, names⟩ := laid.routes edge mem
  have slotMem : (geometry, ResourceKind.shape) ∈ reg.slots ++ lent := by
    apply List.mem_append_left
    apply List.mem_append_right
    exact List.mem_flatMap.mpr ⟨edge, mem, Slot.mem_filled_iff.mpr ⟨drawn, rfl⟩⟩
  rw [edgePath, drawn, routed]
  exact Pool.Holds.shape?_of_names balanced names slotMem

/-! ## Maps that are alike when bare -/

section Alike

variable {reg other : Registry R} {drawn otherDrawn : Option (SequenceView R)}
  {layouter : Layouter R}
  (same : other.bare = reg.bare) (reachable : reg.Reachable drawn)
  (otherReachable : other.Reachable otherDrawn) (laid : reg.Laid layouter)
  (otherLaid : other.Laid layouter)

include same in
theorem get?_classes_alike (id : NodeId) :
    (other.classes.get? id).map ClassNode.bare = (reg.classes.get? id).map ClassNode.bare := by
  have keeps : ∀ node : ClassNode R, Keyed.key node.bare = Keyed.key node := fun _ => rfl
  have split : ∀ map : Registry R,
      map.bare.classes.get? id = (map.classes.get? id).map ClassNode.bare :=
    fun map => Store.get?_map keeps map.classes id
  rw [← split, ← split, same]

include same in
theorem setup_alike : other.text = reg.text ∧ other.metrics = reg.metrics := by
  have text : other.bare.text = reg.bare.text := by rw [same]
  have metrics : other.bare.metrics = reg.bare.metrics := by rw [same]
  exact ⟨text, metrics⟩

include same reachable otherReachable in
/-- Rows that are alike when bare are shown alike, with the same text. -/
theorem row_alike {row otherRow : Method} (mem : row ∈ reg.methods.items)
    (otherMem : otherRow ∈ other.methods.items) (rowSame : otherRow.bare = row.bare) :
    otherRow.plain = row.plain ∧
      (row.visible = true → otherRow.labelText = row.labelText) := by
  obtain ⟨owner, ownerMem, ownerId, _⟩ := reachable.coherent.owner row mem
  obtain ⟨otherOwner, otherOwnerMem, otherOwnerId, _⟩ :=
    otherReachable.coherent.owner otherRow otherMem
  have current := reachable.row_current ownerMem mem ownerId.symm
  have otherCurrent := otherReachable.row_current otherOwnerMem otherMem otherOwnerId.symm
  have classId : otherRow.bare.classId = row.bare.classId := by rw [rowSame]
  have ownerSame : otherOwner.bare = owner.bare := by
    have found := (Store.get?_eq_some_iff reachable.coherent.classKeys).mpr ⟨ownerMem, ownerId⟩
    have otherFound := (Store.get?_eq_some_iff otherReachable.coherent.classKeys).mpr
      ⟨otherOwnerMem, otherOwnerId.trans classId⟩
    have alike := get?_classes_alike same row.classId
    rw [found] at alike
    exact Option.some.inj ((congrArg (Option.map ClassNode.bare) otherFound).symm.trans alike)
  have shown : otherRow.bare.isShown otherOwner.bare.toggles otherOwner.bare.focusedMethod =
      row.bare.isShown owner.bare.toggles owner.bare.focusedMethod := by
    rw [rowSame, ownerSame]
  have text : otherRow.bare.rowText otherOwner.bare.name otherOwner.bare.toggles.showArguments =
      row.bare.rowText owner.bare.name owner.bare.toggles.showArguments := by
    rw [rowSame, ownerSame]
  have visible : otherRow.visible = row.visible :=
    otherCurrent.visible.trans (shown.trans current.visible.symm)
  constructor
  · have split : ∀ method : Method,
        method.plain = { method.bare with visible := method.visible } := fun _ => rfl
    rw [split, split row, rowSame, visible]
  · intro isVisible
    exact (otherCurrent.labelled (visible.trans isVisible)).2.trans
      (text.trans (current.labelled isVisible).2.symm)

include same reachable otherReachable in
theorem methods_alike :
    other.methods.items.map Method.plain = reg.methods.items.map Method.plain := by
  have bareSame : other.bare.methods.items = reg.bare.methods.items := by rw [same]
  exact map_eq_map_of_map_eq bareSame fun otherRow otherMem row mem rowSame =>
    (row_alike same reachable otherReachable mem otherMem rowSame).1

include same reachable otherReachable in
theorem get?_methods_alike (id : NodeId) :
    (other.methods.get? id).map Method.plain = (reg.methods.get? id).map Method.plain := by
  have keeps : ∀ row : Method, Keyed.key row.plain = Keyed.key row := fun _ => rfl
  rw [← Store.get?_map keeps, ← Store.get?_map keeps, Store.map, Store.map,
    methods_alike same reachable otherReachable]

include same reachable otherReachable in
/-- Each class shows the same rows. -/
theorem visibleMethods_alike (classId : NodeId) :
    (other.visibleMethods classId).map Method.plain =
      (reg.visibleMethods classId).map Method.plain := by
  have split : ∀ rows : List Method,
      (rows.filter Method.visible).map Method.plain =
        (rows.map Method.plain).filter Method.visible := by
    intro rows
    rw [List.filter_map]
    rfl
  have owned : (other.methodsOf classId).map Method.plain =
      (reg.methodsOf classId).map Method.plain := by
    have alike := get?_classes_alike same classId
    unfold methodsOf
    cases found : reg.classes.get? classId with
    | none =>
      rw [found, Option.map_none, Option.map_eq_none_iff] at alike
      rw [alike]
    | some node =>
      rw [found, Option.map_some] at alike
      obtain ⟨box, boxFound, boxSame⟩ := Option.map_eq_some_iff.mp alike
      obtain ⟨_, listed, _⟩ := ClassNode.parts_of_bare_eq boxSame
      simp only [boxFound, listed, List.map_filterMap,
        get?_methods_alike same reachable otherReachable]
  rw [visibleMethods, visibleMethods, split, split, owned]

include same reachable otherReachable in
/-- The rows have the same texts and pictures. -/
theorem rows_alike (classId : NodeId) :
    (other.visibleMethods classId).map other.rowLook =
      (reg.visibleMethods classId).map reg.rowLook := by
  apply map_eq_map_of_map_eq (visibleMethods_alike same reachable otherReachable classId)
  intro otherRow otherShown row shown plainSame
  obtain ⟨otherOwn, otherVisible⟩ := List.mem_filter.mp otherShown
  obtain ⟨own, visible⟩ := List.mem_filter.mp shown
  have otherMem := (otherReachable.coherent.mem_methodsOf_iff.mp otherOwn).1
  have mem := (reachable.coherent.mem_methodsOf_iff.mp own).1
  have rowSame : otherRow.plain.bare = row.plain.bare := by rw [plainSame]
  have text := (row_alike same reachable otherReachable mem otherMem rowSame).2 visible
  obtain ⟨face, metrics⟩ := setup_alike same
  have split : ∀ method : Method, { method with label := none } =
      { method.plain with labelText := method.labelText } := fun _ => rfl
  rw [rowLook, rowLook, otherReachable.picture_of_row otherMem otherVisible,
    reachable.picture_of_row mem visible, split, split row, plainSame, text, face, metrics]

include same reachable otherReachable in
theorem size_alike {node box : ClassNode R} (mem : node ∈ reg.classes.items)
    (boxMem : box ∈ other.classes.items) (boxSame : box.bare = node.bare) :
    box.size = node.size := by
  obtain ⟨id, _, header⟩ := ClassNode.parts_of_bare_eq boxSame
  obtain ⟨face, metrics⟩ := setup_alike same
  have texts : (other.visibleMethods node.id).map Method.labelText =
      (reg.visibleMethods node.id).map Method.labelText := by
    have looks := congrArg (List.map fun look => look.1.labelText)
      (rows_alike same reachable otherReachable node.id)
    rwa [List.map_map, List.map_map] at looks
  rw [otherReachable.size_eq boxMem, reachable.size_eq mem, id, header, texts, face, metrics]

include same reachable otherReachable in
/-- The layout gets the same boxes and the same links. -/
theorem layout_alike : other.layoutNodes = reg.layoutNodes ∧
    other.layoutEdges = reg.layoutEdges := by
  have classes : other.bare.classes.items = reg.bare.classes.items := by rw [same]
  have standalone : other.bare.standalone.items = reg.bare.standalone.items := by rw [same]
  constructor
  · rw [layoutNodes, layoutNodes]
    congr 1
    · apply map_eq_map_of_map_eq classes
      intro box boxMem node mem boxSame
      rw [(ClassNode.parts_of_bare_eq boxSame).1,
        size_alike same reachable otherReachable mem boxMem boxSame]
    · apply map_eq_map_of_map_eq standalone
      intro box _ node _ boxSame
      have look := congrArg (fun box : StandaloneNode R =>
        (⟨box.id, box.size.x, box.size.y⟩ : LayoutNode R)) boxSame
      exact look
  · rw [← layoutEdges_bare, same, layoutEdges_bare]

include same reachable otherReachable in
/-- Boxes have the same sizes, headers and outlines. -/
theorem classes_alike :
    other.classes.items.map other.boxLook = reg.classes.items.map reg.boxLook := by
  have bareSame : other.bare.classes.items = reg.bare.classes.items := by rw [same]
  obtain ⟨face, metrics⟩ := setup_alike same
  apply map_eq_map_of_map_eq bareSame
  intro box boxMem node mem boxSame
  have size := size_alike same reachable otherReachable mem boxMem boxSame
  have split : ∀ node : ClassNode R, node.plain = { node.bare with size := node.size } :=
    fun _ => rfl
  obtain ⟨_, _, header⟩ := ClassNode.parts_of_bare_eq boxSame
  rw [boxLook, boxLook, otherReachable.picture_of_header boxMem, reachable.picture_of_header mem,
    otherReachable.outline_of_box boxMem, reachable.outline_of_box mem, split, split node, boxSame,
    header, size, face, metrics]

include same reachable otherReachable in
/-- Maps that are up to date and alike when bare show the same. -/
theorem showsSame_of_bare_eq : reg.ShowsSame other := by
  have standalone : other.bare.standalone.items = reg.bare.standalone.items := by rw [same]
  have edges : other.bare.edges.items = reg.bare.edges.items := by rw [same]
  exact ⟨classes_alike same reachable otherReachable,
    methods_alike same reachable otherReachable, rows_alike same reachable otherReachable,
    standalone, edges⟩

include same reachable otherReachable laid otherLaid in
theorem position_alike {node box : ClassNode R} (mem : node ∈ reg.classes.items)
    (boxMem : box ∈ other.classes.items) (boxSame : box.bare = node.bare) :
    box.position = node.position := by
  obtain ⟨nodes, edges⟩ := layout_alike same reachable otherReachable
  have placed := otherLaid.classes box boxMem
  rw [nodes, edges, (ClassNode.parts_of_bare_eq boxSame).1, laid.classes node mem] at placed
  exact (Option.some.inj placed).symm

include same reachable otherReachable laid otherLaid in
theorem standalone_alike : other.standalone = reg.standalone := by
  have bareSame : other.bare.standalone.items = reg.bare.standalone.items := by rw [same]
  obtain ⟨nodes, edges⟩ := layout_alike same reachable otherReachable
  apply congrArg Store.mk
  rw [← List.map_id other.standalone.items, ← List.map_id reg.standalone.items]
  apply map_eq_map_of_map_eq bareSame
  intro box boxMem node mem boxSame
  have id : box.bare.id = node.bare.id := by rw [boxSame]
  have boxId : box.id = node.id := id
  have placed := otherLaid.standalone box boxMem
  rw [nodes, edges, boxId, laid.standalone node mem] at placed
  have position := (Option.some.inj placed).symm
  have split : ∀ node : StandaloneNode R,
      node = { node.bare with position := node.position } := fun _ => rfl
  rw [id_eq, id_eq, split box, split node, boxSame, position]

include same reachable otherReachable laid otherLaid in
/-- Edges have the same lines. -/
theorem routes_alike :
    other.edges.items.map other.edgePath = reg.edges.items.map reg.edgePath := by
  have bareSame : other.bare.edges.items = reg.bare.edges.items := by rw [same]
  obtain ⟨_, metrics⟩ := setup_alike same
  have boxes : ∀ id, (other.classes.get? id).map ClassNode.rect =
      (reg.classes.get? id).map ClassNode.rect := by
    intro id
    have alike := get?_classes_alike same id
    cases found : reg.classes.get? id with
    | none =>
      rw [found, Option.map_none, Option.map_eq_none_iff] at alike
      rw [alike]
    | some node =>
      rw [found, Option.map_some] at alike
      obtain ⟨box, boxFound, boxSame⟩ := Option.map_eq_some_iff.mp alike
      have mem := Store.mem_of_get? found
      have boxMem := Store.mem_of_get? boxFound
      rw [boxFound, Option.map_some, Option.map_some, ClassNode.rect, ClassNode.rect,
        size_alike same reachable otherReachable mem boxMem boxSame,
        position_alike same reachable otherReachable laid otherLaid mem boxMem boxSame]
  have standalone := standalone_alike same reachable otherReachable laid otherLaid
  have rows : ∀ id, (other.visibleMethods id).map Method.id =
      (reg.visibleMethods id).map Method.id := by
    intro id
    have ids := congrArg (List.map Method.id)
      (visibleMethods_alike same reachable otherReachable id)
    rwa [List.map_map, List.map_map] at ids
  have anchors := anchorRect_congr boxes standalone
    (get?_methods_alike same reachable otherReachable) rows metrics
  have owners : ∀ id, other.layoutOwner id = reg.layoutOwner id := by
    intro id
    rw [← layoutOwner_bare, same, layoutOwner_bare]
  apply map_eq_map_of_map_eq bareSame
  intro edge edgeMem old oldMem edgeSame
  have source : edge.bare.source = old.bare.source := by rw [edgeSame]
  have target : edge.bare.target = old.bare.target := by rw [edgeSame]
  have sourceSame : edge.source = old.source := source
  have targetSame : edge.target = old.target := target
  rw [otherLaid.edgePath_eq otherReachable.balanced edgeMem,
    laid.edgePath_eq reachable.balanced oldMem, route, route, sourceSame, targetSame, anchors,
    anchors, owners, owners]

include same reachable otherReachable laid otherLaid in
/-- Maps that are up to date, laid out in one way and alike when bare show the same
things in the same places. -/
theorem placedSame_of_bare_eq : reg.PlacedSame other := by
  have classes : other.bare.classes.items = reg.bare.classes.items := by rw [same]
  constructor
  · exact map_eq_map_of_map_eq classes fun box boxMem node mem boxSame =>
      position_alike same reachable otherReachable laid otherLaid mem boxMem boxSame
  · rw [standalone_alike same reachable otherReachable laid otherLaid]
  · exact routes_alike same reachable otherReachable laid otherLaid

end Alike

end Registry

end CodeAtlas
