import CodeAtlas.Proofs.Registry.Boxes

/-!
# What refreshing a class changes

Refreshing some classes brings their rows and boxes up to date and touches
nothing else.  A row that is shown as its class asks for stays as it is, and a
box keeps its place, and its label and outline if it has them.  Numbers that are
given out stand for what they stood for, but for the outlines of these classes,
which are drawn anew, and for the labels of rows that get other ones.
-/

namespace CodeAtlas

variable {R : Type} [Scalar R] {reg after : Registry R} {ids : List NodeId}
  {node : ClassNode R} {lent : List Slot} {classId : NodeId} {row : Method}
  {drawn : Option (SequenceView R)}

/-- Stores with the same keys are compared thing by thing. -/
theorem Store.forall₂_of_get? {α : Type} [Keyed α] {store other : Store α}
    {relation : α → α → Prop} (distinct : store.keys.Nodup) (sameKeys : other.keys = store.keys)
    (related : ∀ key item, store.get? key = some item →
      ∃ changed, other.get? key = some changed ∧ relation item changed) :
    List.Forall₂ relation store.items other.items := by
  rw [List.forall₂_iff_get]
  constructor
  · simpa [keys] using (congrArg List.length sameKeys).symm
  · intro index inStore inOther
    have sameKey : Keyed.key (other.items.get ⟨index, inOther⟩) =
        Keyed.key (store.items.get ⟨index, inStore⟩) := by
      have atIndex := congrArg (fun list => list[index]?) sameKeys
      simpa [keys, inStore, inOther] using atIndex
    have found := get?_of_mem distinct (List.get_mem store.items ⟨index, inStore⟩)
    obtain ⟨changed, changedFound, holds⟩ := related _ _ found
    rw [← sameKey, get?_of_mem (sameKeys ▸ distinct) (List.get_mem other.items _)] at changedFound
    rw [Option.some.inj changedFound]
    exact holds

namespace Method

/-- The row is shown as its class asks for, with the label that it asks for. -/
structure Current (row : Method) (node : ClassNode R) : Prop where
  visible : row.visible = row.isShown node.toggles node.focusedMethod
  labelled : row.visible = true → row.Labelled node

/-- What refreshing its class makes of a row, when numbers up to the given one
are in use: the row is shown as the class asks for, and gets another label only
if it is shown and does not have the right one. -/
inductive Renewed (node : ClassNode R) (given : ResourceId) (row : Method) : Method → Prop where
  | kept (current : row.isShown node.toggles node.focusedMethod = true → row.Labelled node) :
      Renewed node given row { row with visible := row.isShown node.toggles node.focusedMethod }
  | relabelled (label : ResourceId) (new : given < label)
      (shown : row.isShown node.toggles node.focusedMethod = true)
      (outdated : ¬ row.Labelled node) :
      Renewed node given row { row with
        visible := true
        label := some label
        labelText := row.rowText node.name node.toggles.showArguments }

section
omit [Scalar R]

theorem Renewed.mono {given less : ResourceId} {row renewed : Method}
    (renews : row.Renewed node given renewed) (le : less ≤ given) :
    row.Renewed node less renewed := by
  cases renews with
  | kept current => exact .kept current
  | relabelled label new shown outdated =>
    exact .relabelled label (Nat.lt_of_le_of_lt le new) shown outdated

/-- Of a class, only its name, its toggles and its focus matter to a row. -/
theorem Renewed.of_same {node other : ClassNode R} {given : ResourceId} {row renewed : Method}
    (renews : row.Renewed node given renewed) (name : other.name = node.name)
    (toggles : other.toggles = node.toggles) (focus : other.focusedMethod = node.focusedMethod) :
    row.Renewed other given renewed := by
  have labelled : row.Labelled other ↔ row.Labelled node := by
    rw [Labelled, Labelled, name, toggles]
  cases renews with
  | kept current =>
    rw [← toggles, ← focus] at current ⊢
    exact .kept fun shown => labelled.mpr (current shown)
  | relabelled label new shown outdated =>
    rw [← toggles, ← focus] at shown
    rw [← name, ← toggles]
    exact .relabelled label new shown fun current => outdated (labelled.mp current)

/-- A row that is up to date stays as it is. -/
theorem Renewed.eq_of_current {given : ResourceId} {row renewed : Method}
    (renews : row.Renewed node given renewed) (current : row.Current node) : renewed = row := by
  cases renews with
  | kept => rw [← current.visible]
  | relabelled _ _ shown outdated =>
    exact absurd (current.labelled (current.visible.trans shown)) outdated

end

end Method

/-- What refreshing a class makes of its box: it keeps its place, and its label
and outline if it has them. -/
structure ClassNode.Redrawn (node redrawn : ClassNode R) : Prop where
  same : redrawn = { node with
    headerLabel := redrawn.headerLabel, size := redrawn.size, outline := redrawn.outline }
  header : node.headerLabel.isSome = true → redrawn.headerLabel = node.headerLabel
  outline : node.outline.isSome = true → redrawn.outline = node.outline

section
omit [Scalar R]

theorem ClassNode.Redrawn.refl (node : ClassNode R) : node.Redrawn node :=
  ⟨rfl, fun _ => rfl, fun _ => rfl⟩

theorem Pool.Evolves.mono {pool next : Pool R} {redrawn more : List Slot}
    (evolves : pool.Evolves next redrawn) (sub : ∀ slot ∈ redrawn, slot ∈ more) :
    pool.Evolves next more := by
  obtain ⟨actions, listed, replayed⟩ := evolves
  exact ⟨actions, fun action mem slot own => sub slot (listed action mem slot own), replayed⟩

/-- A number stands for what it stood for if it is in a slot as before and its
slot is not drawn anew. -/
theorem Pool.Evolves.get?_eq {pool next : Pool R} {redrawn slots nextSlots : List Slot}
    {id : ResourceId} (evolves : pool.Evolves next redrawn) (holds : pool.Holds slots)
    (nextHolds : next.Holds nextSlots) (given : id ≤ pool.lastId)
    (apart : ∀ kind, (id, kind) ∉ redrawn)
    (stays : ∀ kind, (id, kind) ∈ slots → (id, kind) ∈ nextSlots) :
    next.get? id = pool.get? id := by
  cases after : next.get? id with
  | some resource =>
    obtain ⟨old, before, _, same⟩ := evolves.keeps.kept id given resource after
    rw [before, same (apart _)]
  | none =>
    cases before : pool.get? id with
    | none => rfl
    | some old =>
      have held := holds.get?_iff.mp (congrArg (Option.map Resource.kind) before)
      have live := nextHolds.get?_iff.mpr (stays _ held)
      rw [after] at live
      cases live

end

namespace Registry

/-! ## Rows -/

omit [Scalar R] in
theorem lastId_releaseSlot (pool : Pool R) (slot : Option ResourceId) :
    (pool.releaseSlot slot).lastId = pool.lastId := by
  cases slot <;> rfl

theorem renewed_labelRow (reg : Registry R) (node : ClassNode R) (pool : Pool R)
    (shown : row.isShown node.toggles node.focusedMethod = true) :
    row.Renewed node pool.lastId
      (reg.labelRow node pool
        { row with visible := row.isShown node.toggles node.focusedMethod }).1 := by
  unfold labelRow
  dsimp only
  split
  · next outdated =>
      have notLabelled : ¬ row.Labelled node := by
        simp only [Bool.or_eq_true, Option.isNone_iff_eq_none, bne_iff_ne] at outdated
        rintro ⟨isLabelled, text⟩
        rcases outdated with missing | different
        · simp [missing] at isLabelled
        · exact different text
      simp only [Pool.allocateLabel, Pool.allocate, lastId_releaseSlot, shown]
      exact .relabelled (pool.lastId + 1) (Nat.lt_succ_self _) shown notLabelled
  · next current =>
      simp only [Bool.or_eq_true, Option.isNone_iff_eq_none, bne_iff_ne, ne_eq, not_or,
        not_not] at current
      exact .kept fun _ => ⟨Option.isSome_iff_ne_none.mpr current.1, current.2⟩

theorem renewed_refreshRow (reg : Registry R) (node : ClassNode R) {state : RowState R}
    {id : NodeId} (found : state.methods.get? id = some row) :
    ∃ renewed, row.Renewed node state.pool.lastId renewed ∧
      (reg.refreshRow node state id).methods.get? id = some renewed := by
  have replaced : ∀ {renewed : Method}, row.Renewed node state.pool.lastId renewed →
      (state.methods.modify id fun _ => renewed).get? id = some renewed := by
    intro renewed renews
    have rowId : row.id = id := Store.key_of_get? found
    have renewedId : renewed.id = id := by cases renews <;> exact rowId
    rw [Store.get?_modify fun _ _ => renewedId, if_pos rfl, found, Option.map_some]
  unfold refreshRow
  rw [found]
  dsimp only
  split
  · next shown =>
      have renews := reg.renewed_labelRow node state.pool shown
      exact ⟨_, renews, replaced renews⟩
  · next hidden =>
      have renews : row.Renewed node state.pool.lastId
          { row with visible := row.isShown node.toggles node.focusedMethod } :=
        .kept fun shown => absurd shown hidden
      exact ⟨_, renews, replaced renews⟩

/-- No row is refreshed twice, so that each is renewed from what it was. -/
theorem renewed_refreshRows (reg : Registry R) (node : ClassNode R) (distinct : ids.Nodup)
    {state : RowState R} {id : NodeId} (listed : id ∈ ids)
    (found : state.methods.get? id = some row) :
    ∃ renewed, row.Renewed node state.pool.lastId renewed ∧
      (ids.foldl (reg.refreshRow node) state).methods.get? id = some renewed := by
  induction ids generalizing state with
  | nil => cases listed
  | cons first rest ih =>
    obtain ⟨absent, restDistinct⟩ := List.nodup_cons.mp distinct
    rcases List.mem_cons.mp listed with rfl | later
    · obtain ⟨renewed, renews, after⟩ := reg.renewed_refreshRow node found
      exact ⟨renewed, renews, (get?_refreshRows_of_not_mem absent).trans after⟩
    · have different : id ∉ [first] := by
        rw [List.mem_singleton]
        rintro rfl
        exact absent later
      have skipped : ([first].foldl (reg.refreshRow node) state).methods.get? id =
          state.methods.get? id := get?_refreshRows_of_not_mem different
      obtain ⟨renewed, renews, after⟩ :=
        ih restDistinct later (skipped.trans found)
      exact ⟨renewed, renews.mono (reg.evolves_refreshRow node state first).numbers, after⟩

/-! ## Boxes -/

theorem labelHeader_of_isSome (labelled : node.headerLabel.isSome = true) :
    (reg.labelHeader node).1 = node.headerLabel := by
  obtain ⟨label, labelEq⟩ := Option.isSome_iff_exists.mp labelled
  rw [labelHeader, labelEq]

section

variable (balanced : reg.Balanced lent) (coherent : reg.Coherent)
  (found : reg.classes.get? classId = some node)
include balanced coherent found

/-- Refreshing rows keeps the outline of their class. -/
theorem Balanced.outline_live {outline : ResourceId} (outlined : node.outline = some outline) :
    ((reg.refreshedRows node).pool.shape? outline).isSome = true := by
  obtain ⟨foreign, apart, _⟩ := exists_foreign_slots coherent.classKeys found lent
  have before := Pool.Holds.of_perm balanced apart
  rw [ClassNode.slots, List.append_assoc] at before
  have labelled := holds_labelHeader before
  rw [← List.append_assoc] at labelled
  have rows := holds_refreshRows reg node node.methods (reg.rowsStart node)
    coherent.methodKeys labelled.swap
  apply rows.shape?
  simp [outlined]

/-- The box of a refreshed class. -/
theorem Balanced.redrawn_refreshClass :
    ∃ redrawn, (reg.refreshClass classId).classes.get? classId = some redrawn ∧
      node.Redrawn redrawn := by
  have changed : (reg.refreshClass classId).classes.get? classId = some { node with
      headerLabel := (reg.labelHeader node).1
      size := reg.refreshedSize node
      outline := some (reg.redrawnOutline node).1 } := by
    rw [refreshClass_of_get? found, Store.get?_modify, if_pos rfl, found, Option.map_some]
    exact fun _ same => same
  refine ⟨_, changed, rfl, labelHeader_of_isSome, ?_⟩
  intro isOutlined
  obtain ⟨outline, outlined⟩ := Option.isSome_iff_exists.mp isOutlined
  have live := balanced.outline_live coherent found outlined
  simp only [redrawnOutline, Pool.upsertShape, outlined, live, if_true]

end

/-! ## What one class changes -/

theorem refreshClass_of_unknown (unknown : reg.classes.get? classId = none) :
    reg.refreshClass classId = reg := by
  rw [refreshClass, unknown]

theorem refreshClass_keeps (reg : Registry R) (classId : NodeId) :
    (reg.refreshClass classId).standalone = reg.standalone ∧
      (reg.refreshClass classId).edges = reg.edges := by
  cases found : reg.classes.get? classId with
  | none =>
    rw [refreshClass_of_unknown found]
    exact ⟨rfl, rfl⟩
  | some node =>
    rw [refreshClass_of_get? found]
    exact ⟨rfl, rfl⟩

theorem get?_classes_refreshClass_of_ne {classId id : NodeId} (different : id ≠ classId) :
    (reg.refreshClass classId).classes.get? id = reg.classes.get? id := by
  cases found : reg.classes.get? classId with
  | none => rw [refreshClass_of_unknown found]
  | some node =>
    rw [refreshClass_of_get? found, Store.get?_modify, if_neg different]
    exact fun _ same => same

theorem Coherent.renewed_refreshClass (coherent : reg.Coherent) {id : NodeId}
    (rowFound : reg.methods.get? id = some row)
    (found : reg.classes.get? row.classId = some node) :
    ∃ renewed, (reg.refreshClass row.classId).methods.get? id = some renewed ∧
      row.Renewed node reg.pool.lastId renewed := by
  have nodeMem := Store.mem_of_get? found
  have rowId : row.id = id := Store.key_of_get? rowFound
  have listed : row.id ∈ node.methods :=
    coherent.listed_of_owner (Store.mem_of_get? rowFound) nodeMem (Store.key_of_get? found)
  have start : (reg.rowsStart node).methods.get? id = some row := rowFound
  obtain ⟨renewed, renews, after⟩ :=
    reg.renewed_refreshRows node (coherent.rows node nodeMem) (rowId ▸ listed) start
  rw [refreshClass_of_get? found]
  exact ⟨renewed, after, renews.mono (reg.evolves_labelHeader node).numbers⟩

/-- The rows of other classes stay as they are. -/
theorem Coherent.get?_methods_refreshClass (coherent : reg.Coherent) {classId id : NodeId}
    (rowFound : reg.methods.get? id = some row) (foreign : row.classId ≠ classId) :
    (reg.refreshClass classId).methods.get? id = some row := by
  cases found : reg.classes.get? classId with
  | none => rw [refreshClass_of_unknown found, rowFound]
  | some node =>
    rw [refreshClass_of_get? found, ← rowFound]
    apply get?_refreshRows_of_not_mem
    intro listed
    obtain ⟨member, memberMem, memberId, ownerId⟩ :=
      coherent.member node (Store.mem_of_get? found) id listed
    obtain rfl : member = row := Store.eq_of_key_eq coherent.methodKeys memberMem
      (Store.mem_of_get? rowFound) (memberId.trans (Store.key_of_get? rowFound).symm)
    exact foreign (ownerId.trans (Store.key_of_get? found))

/-- The outlines of some classes. -/
def outlinesOf (reg : Registry R) (ids : List NodeId) : List Slot :=
  (reg.classes.items.filter fun node => ids.contains node.id).flatMap fun node =>
    Slot.filled .shape node.outline

omit [Scalar R] in
theorem mem_outlinesOf_iff {slot : Slot} :
    slot ∈ reg.outlinesOf ids ↔ ∃ node ∈ reg.classes.items, node.id ∈ ids ∧
      slot.1 ∈ node.outline ∧ slot.2 = .shape := by
  simp [outlinesOf, Slot.mem_filled_iff, and_assoc]

theorem evolves_refreshClass (reg : Registry R) (classId : NodeId) :
    reg.pool.Evolves (reg.refreshClass classId).pool (reg.outlinesOf [classId]) := by
  cases found : reg.classes.get? classId with
  | none =>
    rw [refreshClass_of_unknown found]
    exact .refl _
  | some node =>
    have labelled :=
      (reg.evolves_labelHeader node).trans (reg.evolves_refreshedRows node)
    have whole := (labelled.weaken _).trans (reg.evolves_redrawnOutline node)
    rw [refreshClass_of_get? found]
    apply whole.mono
    intro slot filled
    exact mem_outlinesOf_iff.mpr ⟨node, Store.mem_of_get? found,
      List.mem_singleton.mpr (Store.key_of_get? found), Slot.mem_filled_iff.mp filled⟩

/-! ## What several classes change -/

/-- What refreshing some classes makes of a map. -/
structure Refreshes (reg : Registry R) (ids : List NodeId) (after : Registry R) : Prop where
  bare : after.bare = reg.bare
  standalone : after.standalone = reg.standalone
  edges : after.edges = reg.edges
  classes : ∀ {id : NodeId} {node : ClassNode R}, reg.classes.get? id = some node →
    ∃ redrawn, after.classes.get? id = some redrawn ∧ node.Redrawn redrawn ∧
      (id ∉ ids → redrawn = node)
  methods : ∀ {id : NodeId} {row : Method} {node : ClassNode R},
    reg.methods.get? id = some row → reg.classes.get? row.classId = some node →
      ∃ renewed, after.methods.get? id = some renewed ∧
        (row.classId ∉ ids → renewed = row) ∧
        (row.classId ∈ ids → row.Renewed node reg.pool.lastId renewed)
  pool : reg.pool.Evolves after.pool (reg.outlinesOf ids)

theorem Refreshes.nil (reg : Registry R) : reg.Refreshes [] reg :=
  ⟨rfl, rfl, rfl, fun found => ⟨_, found, .refl _, fun _ => rfl⟩,
    fun found _ => ⟨_, found, fun _ => rfl, nofun⟩, .refl _⟩

theorem Refreshes.frame (refreshes : reg.Refreshes ids after) :
    after.perspective = reg.perspective ∧ after.text = reg.text ∧
      after.metrics = reg.metrics ∧ after.defaultToggles = reg.defaultToggles := by
  have same := congrArg (fun map : Registry R =>
    (map.perspective, map.text, map.metrics, map.defaultToggles)) refreshes.bare
  simpa [Registry.bare] using same

/-- Outlines of classes that are still to be refreshed are what they were. -/
theorem Coherent.outlinesOf_refreshClass (coherent : reg.Coherent) (absent : classId ∉ ids)
    {slot : Slot} (mem : slot ∈ (reg.refreshClass classId).outlinesOf ids) :
    slot ∈ reg.outlinesOf (classId :: ids) := by
  obtain ⟨node, nodeMem, listed, own⟩ := mem_outlinesOf_iff.mp mem
  have different : node.id ≠ classId := fun same => absent (same ▸ listed)
  have found := Store.get?_of_mem (coherent.refreshClass classId).classKeys nodeMem
  rw [show Keyed.key node = node.id from rfl, get?_classes_refreshClass_of_ne different] at found
  exact mem_outlinesOf_iff.mpr
    ⟨node, Store.mem_of_get? found, List.mem_cons_of_mem _ listed, own⟩

theorem Refreshes.cons (balanced : reg.Balanced lent) (coherent : reg.Coherent)
    (absent : classId ∉ ids) (later : (reg.refreshClass classId).Refreshes ids after) :
    reg.Refreshes (classId :: ids) after := by
  have step := reg.evolves_refreshClass classId
  constructor
  · exact later.bare.trans (bare_refreshClass classId coherent.methodKeys)
  · exact later.standalone.trans (reg.refreshClass_keeps classId).1
  · exact later.edges.trans (reg.refreshClass_keeps classId).2
  · intro id node found
    by_cases same : id = classId
    · subst same
      obtain ⟨redrawn, redrawnFound, draws⟩ := balanced.redrawn_refreshClass coherent found
      obtain ⟨last, lastFound, _, kept⟩ := later.classes redrawnFound
      obtain rfl := kept absent
      exact ⟨last, lastFound, draws, fun apart => absurd List.mem_cons_self apart⟩
    · obtain ⟨last, lastFound, draws, kept⟩ :=
        later.classes ((get?_classes_refreshClass_of_ne same).trans found)
      exact ⟨last, lastFound, draws, fun apart => kept (List.not_mem_of_not_mem_cons apart)⟩
  · intro id row node rowFound found
    by_cases own : row.classId = classId
    · subst own
      obtain ⟨renewed, renewedFound, renews⟩ := coherent.renewed_refreshClass rowFound found
      obtain ⟨redrawn, redrawnFound, _⟩ := balanced.redrawn_refreshClass coherent found
      have owner : renewed.classId = row.classId := by cases renews <;> rfl
      have ownerFound : (reg.refreshClass row.classId).classes.get? renewed.classId =
          some redrawn := by
        rw [owner, redrawnFound]
      obtain ⟨last, lastFound, kept, _⟩ := later.methods renewedFound ownerFound
      obtain rfl := kept (owner ▸ absent)
      exact ⟨last, lastFound, fun apart => absurd List.mem_cons_self apart, fun _ => renews⟩
    · have still := coherent.get?_methods_refreshClass rowFound own
      obtain ⟨last, lastFound, kept, renews⟩ :=
        later.methods still ((get?_classes_refreshClass_of_ne own).trans found)
      refine ⟨last, lastFound, fun apart => kept (List.not_mem_of_not_mem_cons apart), ?_⟩
      intro listed
      exact (renews ((List.mem_cons.mp listed).resolve_left own)).mono step.numbers
  · apply Pool.Evolves.trans
    · apply step.mono
      intro slot mem
      obtain ⟨node, nodeMem, listed, own⟩ := mem_outlinesOf_iff.mp mem
      rw [List.mem_singleton] at listed
      exact mem_outlinesOf_iff.mpr ⟨node, nodeMem, listed ▸ List.mem_cons_self, own⟩
    · exact later.pool.mono fun slot mem => coherent.outlinesOf_refreshClass absent mem

theorem Balanced.refreshes (balanced : reg.Balanced lent) (coherent : reg.Coherent)
    (distinct : ids.Nodup) : reg.Refreshes ids (ids.foldl Registry.refreshClass reg) := by
  induction ids generalizing reg with
  | nil => exact .nil reg
  | cons id rest ih =>
    obtain ⟨absent, restDistinct⟩ := List.nodup_cons.mp distinct
    exact .cons balanced coherent absent (ih (balanced.refreshClass coherent id)
      (coherent.refreshClass id) restDistinct)

/-! ## What numbers stand for -/

section

variable (refreshes : reg.Refreshes ids after) (coherent : reg.Coherent)
include refreshes coherent

/-- Slots stay in use, but for the label of a row that gets another one. -/
theorem Refreshes.mem_slots {slot : Slot} (mem : slot ∈ reg.slots)
    (kept : ∀ {id : NodeId} {row renewed : Method}, reg.methods.get? id = some row →
      after.methods.get? id = some renewed → slot.1 ∈ row.label → renewed.label = row.label) :
    slot ∈ after.slots := by
  simp only [slots, List.mem_append, List.mem_flatMap] at mem
  rcases mem with ((⟨node, nodeMem, own⟩ | ⟨row, rowMem, own⟩) | box) | line
  · obtain ⟨redrawn, found, draws, _⟩ :=
      refreshes.classes (Store.get?_of_mem coherent.classKeys nodeMem)
    apply mem_slots_of_class (Store.mem_of_get? found)
    simp only [ClassNode.slots, List.mem_append, Slot.mem_filled_iff] at own ⊢
    rcases own with ⟨header, kind⟩ | ⟨outline, kind⟩
    · rw [draws.header (Option.isSome_of_mem header)]
      exact Or.inl ⟨header, kind⟩
    · rw [draws.outline (Option.isSome_of_mem outline)]
      exact Or.inr ⟨outline, kind⟩
  · have rowFound := Store.get?_of_mem coherent.methodKeys rowMem
    obtain ⟨owner, ownerMem, ownerId, _⟩ := coherent.owner row rowMem
    have ownerFound := (Store.get?_eq_some_iff coherent.classKeys).mpr ⟨ownerMem, ownerId⟩
    obtain ⟨renewed, found, _, _⟩ := refreshes.methods rowFound ownerFound
    obtain ⟨label, kind⟩ := Slot.mem_filled_iff.mp own
    apply mem_slots_of_method (Store.mem_of_get? found)
    rw [Method.slots, kept rowFound found label]
    exact own
  · simp only [slots, List.mem_append, List.mem_flatMap, refreshes.standalone]
    exact Or.inl (Or.inr box)
  · simp only [slots, List.mem_append, List.mem_flatMap, refreshes.edges]
    exact Or.inr line

theorem Refreshes.get?_pool {lent : List Slot}
    (balanced : reg.Balanced lent) (balancedAfter : after.Balanced lent) {number : ResourceId}
    (given : number ≤ reg.pool.lastId)
    (noOutline : ∀ node ∈ reg.classes.items, node.id ∈ ids → number ∉ node.outline)
    (kept : ∀ {id : NodeId} {row renewed : Method}, reg.methods.get? id = some row →
      after.methods.get? id = some renewed → number ∈ row.label → renewed.label = row.label) :
    after.pool.get? number = reg.pool.get? number := by
  apply refreshes.pool.get?_eq balanced balancedAfter given
  · intro kind mem
    obtain ⟨node, nodeMem, listed, outline, _⟩ := mem_outlinesOf_iff.mp mem
    exact noOutline node nodeMem listed outline
  · intro kind mem
    rcases List.mem_append.mp mem with own | isLent
    · exact List.mem_append_left lent (refreshes.mem_slots coherent own kept)
    · exact List.mem_append_right _ isLent

/-- The row that a row of the map afterwards was before. -/
theorem Refreshes.exists_row {renewed : Method} (mem : renewed ∈ after.methods.items) :
    ∃ row ∈ reg.methods.items, row.id = renewed.id ∧ row.classId = renewed.classId ∧
      (row.classId ∉ ids → renewed = row) := by
  have coherentAfter := coherent.of_bare_eq refreshes.bare
  have known : renewed.id ∈ reg.methods.keys := by
    rw [← keys_bare_methods, ← refreshes.bare, keys_bare_methods]
    exact Store.key_mem_keys mem
  obtain ⟨row, rowFound⟩ := Store.exists_get? known
  have rowMem := Store.mem_of_get? rowFound
  have rowId : row.id = renewed.id := Store.key_of_get? rowFound
  obtain ⟨owner, ownerMem, ownerId, _⟩ := coherent.owner row rowMem
  have ownerFound := (Store.get?_eq_some_iff coherent.classKeys).mpr ⟨ownerMem, ownerId⟩
  obtain ⟨last, lastFound, same, renews⟩ := refreshes.methods rowFound ownerFound
  obtain rfl : last = renewed := Option.some.inj
    (lastFound.symm.trans (Store.get?_of_mem coherentAfter.methodKeys mem))
  refine ⟨row, rowMem, rowId, ?_, same⟩
  by_cases listed : row.classId ∈ ids
  · cases renews listed <;> rfl
  · rw [same listed]

/-- If all boxes are complete, only rows get new numbers. -/
theorem Refreshes.exists_label_of_new {lent : List Slot} (balanced : reg.Balanced lent)
    (balancedAfter : after.Balanced lent)
    (boxes : ∀ node ∈ reg.classes.items,
      node.headerLabel.isSome = true ∧ node.outline.isSome = true) {number : ResourceId}
    {resource : Resource R} (new : reg.pool.lastId < number)
    (live : after.pool.get? number = some resource) :
    ∃ row ∈ after.methods.items, row.label = some number := by
  have notOld : (number, resource.kind) ∉ reg.slots ++ lent :=
    fun old => Nat.not_le_of_lt new (balanced.bound _ old)
  rw [List.mem_append, not_or] at notOld
  have held := Pool.Holds.get?_iff balancedAfter |>.mp (congrArg (Option.map Resource.kind) live)
  rw [List.mem_append] at held
  have own := held.resolve_right notOld.2
  simp only [slots, List.mem_append, List.mem_flatMap] at own
  rcases own with ((⟨redrawn, redrawnMem, ofBox⟩ | ⟨row, rowMem, ofRow⟩) | box) | line
  · have known : redrawn.id ∈ reg.classes.keys := by
      rw [← keys_bare_classes, ← refreshes.bare, keys_bare_classes]
      exact Store.key_mem_keys redrawnMem
    obtain ⟨node, found⟩ := Store.exists_get? known
    obtain ⟨last, lastFound, draws, _⟩ := refreshes.classes found
    have distinct := (coherent.of_bare_eq refreshes.bare).classKeys
    obtain rfl : last = redrawn :=
      Option.some.inj (lastFound.symm.trans (Store.get?_of_mem distinct redrawnMem))
    obtain ⟨headed, outlined⟩ := boxes node (Store.mem_of_get? found)
    rw [ClassNode.slots, draws.header headed, draws.outline outlined] at ofBox
    exact absurd (mem_slots_of_class (Store.mem_of_get? found) ofBox) notOld.1
  · exact ⟨row, rowMem, (Slot.mem_filled_iff.mp ofRow).1⟩
  · rw [refreshes.standalone] at box
    refine absurd ?_ notOld.1
    simp only [slots, List.mem_append, List.mem_flatMap]
    exact Or.inl (Or.inr box)
  · rw [refreshes.edges] at line
    refine absurd ?_ notOld.1
    simp only [slots, List.mem_append, List.mem_flatMap]
    exact Or.inr line

end

/-! ## Reachable maps -/

section

variable (reachable : reg.Reachable drawn) (nodeMem : node ∈ reg.classes.items)
include reachable nodeMem

/-- Rows are up to date on every reachable map. -/
theorem Reachable.row_current (rowMem : row ∈ reg.methods.items) (owned : row.classId = node.id) :
    row.Current node := by
  have coherent := reachable.coherent
  refine ⟨reachable.settled.rows node nodeMem List.not_mem_nil row rowMem owned, ?_⟩
  intro visible
  apply (reachable.fitted node nodeMem List.not_mem_nil).rows row
  rw [← visibleMethods_eq_shown coherent.classKeys nodeMem, visibleMethods, List.mem_filter]
  exact ⟨coherent.mem_methodsOf_iff.mpr ⟨rowMem, owned⟩, visible⟩

/-- Boxes have the size that their rows ask for on every reachable map. -/
theorem Reachable.size_eq :
    node.size = reg.metrics.boxSize reg.text node.headerText
      ((reg.visibleMethods node.id).map Method.labelText) := by
  rw [visibleMethods_eq_shown reachable.coherent.classKeys nodeMem]
  exact (reachable.fitted node nodeMem List.not_mem_nil).size

/-- Outlines are drawn as their boxes ask for on every reachable map. -/
theorem Reachable.exists_outline :
    ∃ outline, node.outline = some outline ∧
      reg.pool.shape? outline = some (reg.metrics.outline node.size) := by
  obtain ⟨outline, outlined⟩ :=
    Option.isSome_iff_exists.mp (reachable.settled.boxes node nodeMem List.not_mem_nil).2
  have slotMem := mem_slots_of_class nodeMem (ClassNode.mem_slots_of_outline outlined)
  have names := reachable.depicted.outlines node nodeMem outline outlined
  exact ⟨outline, outlined,
    Pool.Holds.shape?_of_names reachable.balanced names (List.mem_append_left _ slotMem)⟩

end

end Registry

end CodeAtlas
