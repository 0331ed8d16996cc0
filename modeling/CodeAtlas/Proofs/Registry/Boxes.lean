import CodeAtlas.Proofs.Registry.Pictures

/-!
# Boxes are never out of date

The size of a class follows from its header and the rows that it shows, and a
row that is shown has the text that the toggles ask for.  Labels are reused and
kept while a row is hidden, so a hidden row may have an old text; refreshing the
class repairs it when the row is shown again.
-/

namespace CodeAtlas

variable {R : Type} [Scalar R] {reg : Registry R} {state : Ingest R}

/-- The size of a box with a header and rows: as wide as the widest of them, but
not below the least width, and rounded up. -/
def NodeMetrics.boxSize (metrics : NodeMetrics R) (text : TextMetrics R) (header : String)
    (rows : List String) : Vec R :=
  ⟨Scalar.ceil (rows.foldl (fun width row => Scalar.max width (metrics.textWidth text row))
      (Scalar.max (metrics.textWidth text header) metrics.minWidth)),
    metrics.classHeight rows.length⟩

/-- The row has a label with the text that its class asks for. -/
def Method.Labelled (method : Method) (node : ClassNode R) : Prop :=
  method.label.isSome = true ∧
    method.labelText = method.rowText node.name node.toggles.showArguments

/-- The methods with the given ids that are shown. -/
def Store.shown (methods : Store Method) (ids : List NodeId) : List Method :=
  (ids.filterMap methods.get?).filter Method.visible

namespace Registry

/-- The rows that a class shows are labelled, and its size is made for them. -/
structure Fits (reg : Registry R) (node : ClassNode R) : Prop where
  rows : ∀ row ∈ reg.methods.shown node.methods, row.Labelled node
  size : node.size = reg.metrics.boxSize reg.text node.headerText
    ((reg.methods.shown node.methods).map Method.labelText)

/-- Every class has its size and its texts, but for those that are still to be
refreshed. -/
def FittedBut (reg : Registry R) (stale : List NodeId) : Prop :=
  ∀ node ∈ reg.classes.items, node.id ∉ stale → reg.Fits node

/-! ## Refreshing a class -/

theorem labelled_labelRow (reg : Registry R) (node : ClassNode R) (pool : Pool R)
    (method : Method) : (reg.labelRow node pool method).1.Labelled node := by
  unfold labelRow
  dsimp only
  split
  · exact ⟨rfl, rfl⟩
  · next same =>
      simp only [Bool.or_eq_true, Option.isNone_iff_eq_none, bne_iff_ne, ne_eq, not_or,
        not_not] at same
      exact ⟨Option.isSome_iff_ne_none.mpr same.1, same.2⟩

/-- What refreshing a row does: the row is replaced, and counts if it is
shown. -/
theorem refreshRow_of_get? (reg : Registry R) (node : ClassNode R) {state : RowState R}
    {id : NodeId} {method : Method} (found : state.methods.get? id = some method) :
    ∃ row, row.id = id ∧
      (reg.refreshRow node state id).methods = (state.methods.modify id fun _ => row) ∧
      ((row.visible = true ∧ row.Labelled node ∧
          (reg.refreshRow node state id).width =
            Scalar.max state.width (reg.metrics.textWidth reg.text row.labelText) ∧
          (reg.refreshRow node state id).visibleRows = state.visibleRows + 1) ∨
        (row.visible = false ∧ (reg.refreshRow node state id).width = state.width ∧
          (reg.refreshRow node state id).visibleRows = state.visibleRows)) := by
  have methodId : method.id = id := Store.key_of_get? found
  let shown := { method with visible := method.isShown node.toggles node.focusedMethod }
  have sameRow : (reg.labelRow node state.pool shown).1.id = shown.id ∧
      (reg.labelRow node state.pool shown).1.visible = shown.visible := by
    unfold labelRow
    dsimp only
    split <;> exact ⟨rfl, rfl⟩
  unfold refreshRow
  rw [found]
  dsimp only
  split
  · next visible =>
      exact ⟨_, sameRow.1.trans methodId, rfl,
        Or.inl ⟨sameRow.2.trans visible, labelled_labelRow reg node state.pool shown, rfl, rfl⟩⟩
  · next hidden => exact ⟨shown, methodId, rfl, Or.inr ⟨by simpa using hidden, rfl, rfl⟩⟩

theorem refreshRow_of_unknown {node : ClassNode R} {state : RowState R} {id : NodeId}
    (unknown : state.methods.get? id = none) :
    reg.refreshRow node state id = state := by
  rw [refreshRow, unknown]

/-- Refreshing rows leaves other rows alone. -/
theorem get?_refreshRows_of_not_mem {node : ClassNode R} {ids : List NodeId} {state : RowState R}
    {id : NodeId} (absent : id ∉ ids) :
    (ids.foldl (reg.refreshRow node) state).methods.get? id = state.methods.get? id := by
  induction ids generalizing state with
  | nil => rfl
  | cons first rest ih =>
    rw [List.foldl_cons, ih (List.not_mem_of_not_mem_cons absent)]
    cases found : state.methods.get? first with
    | none => rw [refreshRow_of_unknown found]
    | some method =>
      obtain ⟨row, rowId, changed, _⟩ := reg.refreshRow_of_get? node found
      rw [changed, Store.get?_modify fun _ _ => rowId, if_neg (List.ne_of_not_mem_cons absent)]

/-- From one state to a later one the rows that are shown have become labelled,
and the width and the count have grown by them. -/
structure RowsFit (reg : Registry R) (node : ClassNode R) (shown : List Method)
    (state refreshed : RowState R) : Prop where
  labelled : ∀ row ∈ shown, row.Labelled node
  width : refreshed.width = (shown.map Method.labelText).foldl
    (fun width row => Scalar.max width (reg.metrics.textWidth reg.text row)) state.width
  count : refreshed.visibleRows = state.visibleRows + shown.length

theorem RowsFit.cons {node : ClassNode R} {shown : List Method}
    {state next refreshed : RowState R} {row : Method}
    (fit : reg.RowsFit node shown next refreshed) (labelled : row.Labelled node)
    (width : next.width = Scalar.max state.width (reg.metrics.textWidth reg.text row.labelText))
    (count : next.visibleRows = state.visibleRows + 1) :
    reg.RowsFit node (row :: shown) state refreshed := by
  constructor
  · rintro other (_ | ⟨_, later⟩)
    · exact labelled
    · exact fit.labelled other later
  · rw [fit.width, width, List.map_cons, List.foldl_cons]
  · rw [fit.count, count, List.length_cons, Nat.add_assoc, Nat.add_comm 1]

theorem RowsFit.of_same {node : ClassNode R} {shown : List Method}
    {state next refreshed : RowState R} (fit : reg.RowsFit node shown next refreshed)
    (width : next.width = state.width) (count : next.visibleRows = state.visibleRows) :
    reg.RowsFit node shown state refreshed :=
  ⟨fit.labelled, width ▸ fit.width, count ▸ fit.count⟩

theorem rowsFit_refreshRows (reg : Registry R) (node : ClassNode R) {ids : List NodeId}
    (distinct : ids.Nodup) (state : RowState R) :
    reg.RowsFit node ((ids.foldl (reg.refreshRow node) state).methods.shown ids) state
      (ids.foldl (reg.refreshRow node) state) := by
  induction ids generalizing state with
  | nil => exact ⟨by simp [Store.shown], rfl, rfl⟩
  | cons id rest ih =>
    obtain ⟨absent, restDistinct⟩ := List.nodup_cons.mp distinct
    have later := ih restDistinct (reg.refreshRow node state id)
    -- No later row touches this one, so it is in the end as this step leaves it.
    have last : (rest.foldl (reg.refreshRow node)
        (reg.refreshRow node state id)).methods.get? id =
          (reg.refreshRow node state id).methods.get? id :=
      get?_refreshRows_of_not_mem absent
    rw [List.foldl_cons]
    rw [Store.shown] at later ⊢
    cases found : state.methods.get? id with
    | none =>
      rw [refreshRow_of_unknown found] at later last ⊢
      rw [List.filterMap_cons_none (last.trans found)]
      exact later
    | some method =>
      obtain ⟨row, rowId, changed, step⟩ := reg.refreshRow_of_get? node found
      rw [changed, Store.get?_modify fun _ _ => rowId, if_pos rfl, found, Option.map_some] at last
      rw [List.filterMap_cons_some last]
      rcases step with ⟨visible, labelled, width, count⟩ | ⟨hidden, width, count⟩
      · rw [List.filter_cons_of_pos visible]
        exact later.cons labelled width count
      · rw [List.filter_cons_of_neg (by simp [hidden])]
        exact later.of_same width count

/-- Refreshing a class makes it fit. -/
theorem FittedBut.refreshClass {stale : List NodeId} {classId : NodeId}
    (fitted : reg.FittedBut (classId :: stale)) (coherent : reg.Coherent) :
    (reg.refreshClass classId).FittedBut stale := by
  cases found : reg.classes.get? classId with
  | none =>
    rw [Registry.refreshClass, found]
    intro node mem notStale
    have unknown := Store.get?_eq_none_iff.mp found
    have different : node.id ≠ classId := fun same => unknown (same ▸ Store.key_mem_keys mem)
    exact fitted node mem (List.not_mem_cons_of_ne_of_not_mem different notStale)
  | some node =>
    rw [refreshClass_of_get? found]
    have nodeMem := Store.mem_of_get? found
    have nodeId : node.id = classId := Store.key_of_get? found
    intro other mem notStale
    rcases Store.mem_modify.mp mem with ⟨old, oldMem, same, rfl⟩ | ⟨old, different⟩
    · obtain rfl : old = node :=
        Store.eq_of_key_eq coherent.classKeys oldMem nodeMem (same.trans nodeId.symm)
      have fit := reg.rowsFit_refreshRows old (coherent.rows old oldMem)
        (reg.rowsStart old)
      constructor
      · exact fit.labelled
      · have width := fit.width
        have count := fit.count
        rw [NodeMetrics.boxSize, List.length_map]
        rw [show (reg.rowsStart old).visibleRows = 0 from rfl, Nat.zero_add] at count
        rw [refreshedSize, refreshedRows, width, count]
        rfl
    · have before := fitted other old (List.not_mem_cons_of_ne_of_not_mem different notStale)
      have sameRows : (reg.refreshedRows node).methods.shown other.methods =
          reg.methods.shown other.methods := by
        rw [Store.shown, Store.shown]
        congr 1
        apply List.filterMap_congr
        intro id listed
        apply get?_refreshRows_of_not_mem
        -- A row of this class cannot be a row of another one.
        intro rowListed
        have sameClass := coherent.class_eq_of_listed old nodeMem listed rowListed
        exact different ((congrArg ClassNode.id sameClass).trans nodeId)
      constructor
      · rw [sameRows]
        exact before.rows
      · rw [sameRows]
        exact before.size

theorem FittedBut.refreshClasses {ids : List NodeId} (fitted : reg.FittedBut ids)
    (coherent : reg.Coherent) :
    (ids.foldl Registry.refreshClass reg).FittedBut [] := by
  induction ids generalizing reg with
  | nil => exact fitted
  | cons id rest ih =>
    exact ih (fitted.refreshClass coherent) (coherent.refreshClass id)

/-! ## Changes that leave classes behind -/

section

variable {other : Registry R} {stale more : List NodeId} (fitted : reg.FittedBut stale)
  (text : other.text = reg.text) (metrics : other.metrics = reg.metrics)
include fitted text metrics

/-- A class fits as it did on an older map, wherever it stands, if its rows are
looked up as before. -/
theorem FittedBut.of_older (classes : ∀ node ∈ other.classes.items, node.id ∉ more →
      ∃ old ∈ reg.classes.items, old.id ∉ stale ∧ (∃ position, node = { old with position }) ∧
        ∀ id ∈ old.methods, other.methods.get? id = reg.methods.get? id) :
    other.FittedBut more := by
  intro node mem fresh
  obtain ⟨old, oldMem, oldFresh, ⟨_, rfl⟩, sameRows⟩ := classes node mem fresh
  have before := fitted old oldMem oldFresh
  have shownEq : other.methods.shown old.methods = reg.methods.shown old.methods := by
    rw [Store.shown, Store.shown, List.filterMap_congr sameRows]
  constructor
  · rw [shownEq]
    exact before.rows
  · rw [shownEq, text, metrics]
    exact before.size

/-- Fewer classes, with the same methods. -/
theorem FittedBut.of_subset (methods : other.methods = reg.methods)
    (classes : ∀ node ∈ other.classes.items, node ∈ reg.classes.items) : other.FittedBut stale :=
  fitted.of_older text metrics fun node mem fresh =>
    ⟨node, classes node mem, fresh, ⟨node.position, rfl⟩, fun _ _ => by rw [methods]⟩

end

theorem fittedBut_of_empty (noClasses : reg.classes.items = []) :
    reg.FittedBut [] := by
  rw [FittedBut, noClasses]
  intro node mem
  cases mem

theorem FittedBut.rowsChange (fitted : reg.FittedBut []) (coherent : reg.Coherent)
    {result : Bool × Registry R} (change : reg.RowsChange result) : result.2.FittedBut [] := by
  rcases change with rfl | ⟨classId, toggles, focus, focusListed, rfl⟩
  · exact fitted
  · have others : (reg.reconfigure classId toggles focus).FittedBut [classId] := by
      refine fitted.of_older rfl rfl ?_
      intro node mem fresh
      rcases Store.mem_modify.mp mem with ⟨old, _, same, rfl⟩ | ⟨old, _⟩
      · exact absurd (List.mem_singleton.mpr same) fresh
      · exact ⟨node, old, List.not_mem_nil, ⟨node.position, rfl⟩, fun _ _ => rfl⟩
    exact others.refreshClass (coherent.reconfigure toggles focusListed)

theorem FittedBut.applyPositions (fitted : reg.FittedBut [])
    (positions : Positions R) : (reg.applyPositions positions).FittedBut [] := by
  apply List.foldlRecOn (motive := fun (moved : Registry R) => moved.FittedBut []) positions
  · exact fitted
  · rintro moved held ⟨id, position⟩ _
    dsimp only
    unfold moveTo
    split
    · refine held.of_older rfl rfl ?_
      intro node mem fresh
      rcases Store.mem_modify.mp mem with ⟨old, oldMem, _, rfl⟩ | ⟨old, _⟩
      · exact ⟨old, oldMem, fresh, ⟨position, rfl⟩, fun _ _ => rfl⟩
      · exact ⟨node, old, fresh, ⟨node.position, rfl⟩, fun _ _ => rfl⟩
    · exact held.of_subset rfl rfl rfl fun _ mem => mem

/-! ## Removal -/

section

variable (fitted : reg.FittedBut []) (coherent : reg.Coherent)
include fitted coherent

theorem FittedBut.deleteClass {doomed : ClassNode R} (mem : doomed ∈ reg.classes.items) :
    (reg.deleteClass doomed).FittedBut [] := by
  refine fitted.of_older rfl rfl ?_
  intro node nodeMem fresh
  obtain ⟨old, different⟩ := Store.mem_erase.mp nodeMem
  refine ⟨node, old, fresh, ⟨node.position, rfl⟩, ?_⟩
  intro id listed
  apply Store.get?_foldl_erase_of_not_mem
  intro doomedListed
  have sameClass := coherent.class_eq_of_listed old mem listed doomedListed
  exact different (congrArg ClassNode.id sameClass)

theorem FittedBut.withoutMethod {method : Method} (mem : method ∈ reg.methods.items) :
    (reg.withoutMethod method).FittedBut [method.classId] := by
  refine fitted.of_older rfl rfl ?_
  intro node nodeMem fresh
  rcases Store.mem_modify.mp nodeMem with ⟨old, _, same, rfl⟩ | ⟨old, different⟩
  · exact absurd (List.mem_singleton.mpr same) fresh
  · refine ⟨node, old, List.not_mem_nil, ⟨node.position, rfl⟩, ?_⟩
    intro id listed
    apply Store.get?_erase_of_ne
    rintro rfl
    obtain ⟨row, rowMem, rowId, owner⟩ := coherent.member node old _ listed
    obtain rfl : row = method := Store.eq_of_key_eq coherent.methodKeys rowMem mem rowId
    exact different owner.symm

theorem FittedBut.deleteNode (id : NodeId) : (reg.deleteNode id).2.FittedBut [] := by
  rcases reg.deleteNode_cases id with ⟨node, found, deleted⟩ | ⟨method, _, found, deleted⟩ |
      ⟨node, _, _, _, deleted⟩ | ⟨_, same⟩
  · rw [deleted]
    exact fitted.deleteClass coherent (Store.mem_of_get? found)
  · rw [deleted, deleteMethod_eq]
    have mem := Store.mem_of_get? found
    exact (fitted.withoutMethod coherent mem).refreshClass (coherent.withoutMethod mem)
  · rw [deleted]
    exact fitted.of_subset rfl rfl rfl fun _ mem => mem
  · rw [same]
    exact fitted

theorem FittedBut.focusOnClass (classId : NodeId) : (reg.focusOnClass classId).2.FittedBut [] := by
  apply (coherent.focusOnClass_induction classId
    (motive := fun (left : Registry R) => left.FittedBut []) fitted _ _).2
  · exact fitted.of_subset rfl rfl rfl fun _ mem => mem
  · exact fun left coherentLeft held id _ => held.deleteNode coherentLeft id

end

/-! ## Taking in data -/

theorem FittedBut.technicalNode (fitted : state.registry.FittedBut state.touched) (node : Node) :
    (state.technicalNode node).registry.FittedBut (state.technicalNode node).touched := by
  rcases Ingest.technicalNode_cases state node with same | ⟨new, _, added⟩ | ⟨_, _, added⟩
  · rw [same]
    exact fitted
  · rw [added]
    refine fitted.of_older rfl rfl ?_
    intro other mem fresh
    rw [List.mem_append, not_or] at fresh
    rcases (Store.mem_insert_of_new (Ingest.not_mem_keys_of_new new).1).mp mem with old | rfl
    · exact ⟨other, old, fresh.1, ⟨other.position, rfl⟩, fun _ _ => rfl⟩
    · exact absurd (List.mem_singleton.mpr rfl) fresh.2
  · rw [added]
    exact fitted

theorem FittedBut.claimMethod (fitted : state.registry.FittedBut state.touched)
    (ready : state.Ready) (link : Relationship) :
    (state.claimMethod link).registry.FittedBut
      (state.claimMethod link).touched := by
  rcases Ingest.claimMethod_cases state link with same | ⟨node, _, _, found, claimed⟩
  · rw [same]
    exact fitted
  · rw [claimed]
    have new : node.id ∉ state.registry.methods.keys :=
      ready.pending node (Store.mem_of_get? found)
    refine fitted.of_older rfl rfl ?_
    intro other mem fresh
    rw [List.mem_append, not_or] at fresh
    rcases Store.mem_modify.mp mem with ⟨old, _, same, rfl⟩ | ⟨old, _⟩
    · exact absurd (List.mem_singleton.mpr same) fresh.2
    · refine ⟨other, old, fresh.1, ⟨other.position, rfl⟩, ?_⟩
      intro id listed
      obtain ⟨row, rowMem, rowId, _⟩ := ready.coherent.member other old id listed
      exact Store.get?_insert_of_mem new (Store.mem_keys_iff.mpr ⟨row, rowMem, rowId⟩)

theorem FittedBut.architectureNode (fitted : state.registry.FittedBut [])
    (node : Node) : (state.architectureNode node).registry.FittedBut [] := by
  rcases Ingest.architectureNode_cases state node with same | ⟨_, _, _, _, _, _, _, _, added⟩
  · rw [same]
    exact fitted
  · rw [added]
    exact fitted.of_subset rfl rfl rfl fun _ mem => mem

theorem FittedBut.edge (fitted : state.registry.FittedBut [])
    (link : Relationship) : (state.edge link).registry.FittedBut [] := by
  rcases Ingest.edge_cases state link with ⟨_, same⟩ | ⟨_, _, _, _, added⟩
  · rw [same]
    exact fitted
  · rw [added]
    exact fitted.of_subset rfl rfl rfl fun _ mem => mem

/-- The classes that a batch touches are refreshed before its edges come in. -/
theorem FittedBut.withNodes (fitted : reg.FittedBut []) (coherent : reg.Coherent)
    (nodes : List Node) (links : List Relationship) :
    (reg.withNodes nodes links).registry.FittedBut [] := by
  unfold Registry.withNodes
  cases perspective : reg.perspective with
  | technical =>
    have ready : Ingest.Ready { registry := reg } := ⟨coherent, perspective, by simp⟩
    have claimed := ready.claims_induction nodes links
      (motive := fun (state : Ingest R) => state.registry.FittedBut state.touched) fitted
      (fun _ _ held node _ => held.technicalNode node)
      fun _ stillReady held link => held.claimMethod stillReady link
    apply FittedBut.refreshClasses _ claimed.1.coherent
    intro node mem notTouched
    apply claimed.2 node mem
    rwa [List.mem_eraseDups, List.mem_mergeSort] at notTouched
  | architecture =>
    exact List.foldlRecOn (motive := fun (state : Ingest R) => state.registry.FittedBut []) nodes
      Ingest.architectureNode fitted fun _ held node _ => held.architectureNode node

theorem FittedBut.addData (fitted : reg.FittedBut []) (coherent : reg.Coherent)
    (nodes : List Node) (links : List Relationship) :
    (reg.addData nodes links).2.FittedBut [] :=
  List.foldlRecOn (motive := fun (state : Ingest R) => state.registry.FittedBut []) links
    Ingest.edge (fitted.withNodes coherent nodes links)
    fun _ held link _ => held.edge link

/-! ## All steps -/

theorem FittedBut.apply (fitted : reg.FittedBut []) (coherent : reg.Coherent)
    (operation : Operation R) :
    (reg.apply operation).FittedBut [] := by
  by_cases rows : operation.isRows = true
  · rcases coherent.rowsChange_apply rows with ⟨_, change⟩
    exact fitted.rowsChange coherent change
  cases operation with
  | setPerspective perspective =>
    unfold Registry.apply setPerspective
    dsimp only
    split
    · exact fitted
    · exact fittedBut_of_empty rfl
  | setData nodes links =>
    exact (fittedBut_of_empty rfl : reg.clear.FittedBut []).addData (coherent_clear reg)
      nodes links
  | addData nodes links => exact fitted.addData coherent nodes links
  | deleteNode id => exact fitted.deleteNode coherent id
  | clear => exact fittedBut_of_empty rfl
  | focusOnClass classId => exact fitted.focusOnClass coherent classId
  | applyPositions positions => exact fitted.applyPositions positions
  | updateEdgeGeometry => exact fitted.of_subset rfl rfl rfl fun _ mem => mem
  | _ => exact absurd rfl rows

theorem Reachable.fitted {drawn : Option (SequenceView R)}
    (reachable : reg.Reachable drawn) : reg.FittedBut [] := by
  induction reachable with
  | create metrics toggles text => exact fittedBut_of_empty rfl
  | operate before operation _ fitted => exact fitted.apply before.coherent operation
  | draw _ _ _ _ built fitted =>
    obtain ⟨_, rfl, _⟩ := eq_of_build built
    exact fitted.of_subset rfl rfl rfl fun _ mem => mem
  | giveBack _ fitted => exact fitted.of_subset rfl rfl rfl fun _ mem => mem

/-! ## What is seen -/

theorem text_rasterize (metrics : TextMetrics R) (text : String) (style : LabelStyle R) :
    (metrics.rasterize text style).text = text := by
  unfold TextMetrics.rasterize
  dsimp only
  split <;> rfl

/-- A slot that stands for the label of a text holds a label with that text. -/
theorem Reachable.label_text {drawn : Option (SequenceView R)}
    (reachable : reg.Reachable drawn) {id : ResourceId} {text : String}
    (named : reg.pool.Names id (reg.nameplate text))
    (owned : (id, .label) ∈ reg.slots) :
    ∃ bitmap, reg.pool.label? id = some bitmap ∧ bitmap.text = text :=
  ⟨_, Pool.Holds.label?_of_names reachable.balanced named (List.mem_append_left _ owned),
    text_rasterize _ _ _⟩

omit [Scalar R] in
theorem visibleMethods_eq_shown (distinct : reg.classes.keys.Nodup) {node : ClassNode R}
    (mem : node ∈ reg.classes.items) :
    reg.visibleMethods node.id = reg.methods.shown node.methods := by
  have found : reg.classes.get? node.id = some node := Store.get?_of_mem distinct mem
  rw [visibleMethods, methodsOf, found, Store.shown]

/-- On every reachable map, for every class: its methods are visible exactly if
toggles and focus ask for them; a visible method has a live label with the text
that is kept for it, which is the text that its row should have; the header has a
live label with its text; the size is that of a box with the header and the
visible rows; and the live outline is that of a box of this size. -/
theorem boxes_current {registry : Registry R} {drawn : Option (SequenceView R)}
    (reachable : registry.Reachable drawn) {node : ClassNode R}
    (mem : node ∈ registry.classes.items) :
    (∀ method ∈ registry.methods.items, method.classId = node.id →
      method.visible = method.isShown node.toggles node.focusedMethod ∧
      (method.visible = true →
        ∃ label bitmap, method.label = some label ∧ registry.pool.label? label = some bitmap ∧
          bitmap.text = method.labelText ∧
          method.labelText = method.rowText node.name node.toggles.showArguments)) ∧
    (∃ label bitmap, node.headerLabel = some label ∧ registry.pool.label? label = some bitmap ∧
      bitmap.text = node.headerText) ∧
    node.size = registry.metrics.boxSize registry.text node.headerText
      ((registry.visibleMethods node.id).map fun method =>
        method.rowText node.name node.toggles.showArguments) ∧
    (∃ outline, node.outline = some outline ∧
      registry.pool.shape? outline = some (registry.metrics.outline node.size)) := by
  have coherent := reachable.coherent
  have settled := reachable.settled
  have depicted := reachable.depicted
  have fits := reachable.fitted node mem List.not_mem_nil
  have shown := visibleMethods_eq_shown coherent.classKeys mem
  obtain ⟨headed, outlined⟩ := settled.boxes node mem List.not_mem_nil
  refine ⟨?_, ?_, ?_, ?_⟩
  · intro method methodMem owned
    refine ⟨settled.rows node mem List.not_mem_nil method methodMem owned, ?_⟩
    intro visible
    have listed : method ∈ registry.methods.shown node.methods := by
      rw [← shown, visibleMethods, List.mem_filter]
      exact ⟨coherent.mem_methodsOf_iff.mpr ⟨methodMem, owned⟩, visible⟩
    obtain ⟨isLabelled, textEq⟩ := fits.rows method listed
    obtain ⟨label, labelEq⟩ := Option.isSome_iff_exists.mp isLabelled
    obtain ⟨bitmap, live, bitmapText⟩ :=
      reachable.label_text (depicted.rows method methodMem label labelEq)
        (mem_slots_of_method methodMem (Slot.mem_filled_iff.mpr ⟨labelEq, rfl⟩))
    exact ⟨label, bitmap, labelEq, live, bitmapText, textEq⟩
  · obtain ⟨label, labelEq⟩ := Option.isSome_iff_exists.mp headed
    have owned : (label, ResourceKind.label) ∈ node.slots :=
      List.mem_append_left _ (Slot.mem_filled_iff.mpr ⟨labelEq, rfl⟩)
    obtain ⟨bitmap, live, bitmapText⟩ :=
      reachable.label_text (depicted.headers node mem label labelEq) (mem_slots_of_class mem owned)
    exact ⟨label, bitmap, labelEq, live, bitmapText⟩
  · have texts : (registry.methods.shown node.methods).map Method.labelText =
        (registry.methods.shown node.methods).map fun method =>
          method.rowText node.name node.toggles.showArguments :=
      List.map_congr_left fun row listed => (fits.rows row listed).2
    rw [shown, ← texts]
    exact fits.size
  · obtain ⟨outline, outlineEq⟩ := Option.isSome_iff_exists.mp outlined
    have owned := mem_slots_of_class mem (ClassNode.mem_slots_of_outline outlineEq)
    exact ⟨outline, outlineEq, Pool.Holds.shape?_of_names reachable.balanced
      (depicted.outlines node mem outline outlineEq) (List.mem_append_left _ owned)⟩

/-- The small diagram, once the arguments of its method are shown. -/
theorem boxes_current_sample :
    let registry := (Engine.sampleStart.setData Engine.sampleNodes Engine.sampleClaims).2.registry
      |>.apply (.flipToggle "class" .arguments)
    ∃ node ∈ registry.classes.items, node.id = "class" ∧
      node.size = registry.metrics.boxSize registry.text node.headerText
        ((registry.visibleMethods node.id).map fun method =>
          method.rowText node.name node.toggles.showArguments) := by
  intro registry
  have before : (Engine.sampleStart.setData Engine.sampleNodes
      Engine.sampleClaims).2.registry.Reachable _ :=
    Engine.reachable_of_run .standard _ _ _ [.setData Engine.sampleNodes Engine.sampleClaims] rfl
  have reachable := before.operate (.flipToggle "class" .arguments) (Or.inr rfl)
  have keys : registry.classes.keys = ["class"] :=
    ((rowsChange_flipToggle before.coherent "class" .arguments).keeps before.coherent).1.trans
      Engine.keys_sample.1
  have known : "class" ∈ registry.classes.keys := by
    rw [keys]
    decide
  obtain ⟨node, mem, nodeId⟩ := Store.mem_keys_iff.mp known
  exact ⟨node, mem, nodeId, (boxes_current reachable mem).2.2.1⟩

end Registry

end CodeAtlas
