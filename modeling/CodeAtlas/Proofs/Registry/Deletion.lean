import CodeAtlas.Proofs.Registry.Departure
import CodeAtlas.Proofs.Registry.Names
import CodeAtlas.Proofs.Registry.Refresh

/-!
# Deleting is exact

Deleting takes off the map what an id names, the methods of a class with it, and
the edges at what goes, and it lets go of the resources that these own.  All else
stays in its order as it was.  Only the owner of a deleted method is brought up to
date: if the method had the focus, its siblings may come in sight again.
-/

namespace CodeAtlas

variable {R : Type} [Scalar R] {reg : Registry R} {drawn : Option (SequenceView R)}
  {method : Method}

/-! ## Pools that let go -/

namespace Pool

variable {pool middle left : Pool R} {slots more : List Slot}

/-- A pool without the resources of some slots. -/
structure Drops (pool : Pool R) (slots : List Slot) (left : Pool R) : Prop where
  numbers : left.lastId = pool.lastId
  gone : ∀ id ∈ slots.map Prod.fst, left.get? id = none
  kept : ∀ id ∉ slots.map Prod.fst, left.get? id = pool.get? id

section
omit [Scalar R]

theorem Drops.trans (first : pool.Drops slots middle) (second : middle.Drops more left) :
    pool.Drops (slots ++ more) left := by
  constructor
  · exact second.numbers.trans first.numbers
  · intro id mem
    by_cases inMore : id ∈ more.map Prod.fst
    · exact second.gone id inMore
    · rw [List.map_append, List.mem_append] at mem
      rw [second.kept id inMore, first.gone id (mem.resolve_right inMore)]
  · intro id absent
    rw [List.map_append, List.mem_append, not_or] at absent
    rw [second.kept id absent.2, first.kept id absent.1]

theorem drops_releaseSlot (pool : Pool R) (kind : ResourceKind) (slot : Option ResourceId) :
    pool.Drops (Slot.filled kind slot) (pool.releaseSlot slot) := by
  cases slot with
  | none => exact ⟨rfl, by simp, fun _ _ => rfl⟩
  | some released =>
    constructor
    · rfl
    · simp [releaseSlot, get?_release]
    · intro id absent
      rw [releaseSlot, get?_release, if_neg (by simpa using absent)]

theorem drops_releaseSlots {α : Type} (kind : ResourceKind) (slot : α → Option ResourceId)
    (owners : List α) (pool : Pool R) :
    pool.Drops (owners.flatMap fun owner => Slot.filled kind (slot owner))
      (owners.foldl (fun pool owner => pool.releaseSlot (slot owner)) pool) := by
  induction owners generalizing pool with
  | nil => exact ⟨rfl, by simp, fun _ _ => rfl⟩
  | cons first rest ih =>
    exact (drops_releaseSlot pool kind (slot first)).trans (ih _)

end

end Pool

namespace Store

variable {α : Type} [Keyed α] {store other : Store α}

theorem filter_of_absent {gone : List String} (absent : ∀ id ∈ gone, id ∉ store.keys) :
    (store.items.filter fun item => !gone.contains (Keyed.key item)) = store.items := by
  apply List.filter_eq_self.mpr
  intro item mem
  have stays : Keyed.key item ∉ gone := fun going => absent _ going (key_mem_keys mem)
  simpa using stays

theorem mem_keys_filter {gone : List String} {key : String} :
    key ∈ (store.items.filter fun item => !gone.contains (Keyed.key item)).map Keyed.key ↔
      key ∈ store.keys ∧ key ∉ gone := by
  simp only [keys, List.mem_map, List.mem_filter, Bool.not_eq_true', List.contains_eq_mem,
    decide_eq_false_iff_not]
  constructor
  · rintro ⟨item, ⟨mem, stays⟩, rfl⟩
    exact ⟨⟨item, mem, rfl⟩, stays⟩
  · rintro ⟨⟨item, mem, rfl⟩, stays⟩
    exact ⟨item, ⟨mem, stays⟩, rfl⟩

end Store

/-! ## What goes -/

/-- Whether an edge has an end among some nodes. -/
def Edge.meets (edge : Edge) (ids : List NodeId) : Bool :=
  ids.contains edge.source || ids.contains edge.target

/-- The class that is brought up to date when a thing goes. -/
def Entity.owner? : Entity R → Option NodeId
  | .methodRow method => some method.classId
  | _ => none

/-- A class without some of its rows and without a focus on one of them, in a box
of the given size. -/
def ClassNode.without (node : ClassNode R) (gone : List NodeId) (size : Vec R) : ClassNode R :=
  { node with
    methods := node.methods.filter fun id => !gone.contains id
    focusedMethod := node.focusedMethod.filter fun id => !gone.contains id
    size }

/-- A row that was hidden is shown. -/
structure Method.ShownAgain (node : ClassNode R) (given : ResourceId) (row shown : Method) :
    Prop where
  wasHidden : row.visible = false
  asked : row.isShown node.toggles node.focusedMethod = true
  renewed : row.Renewed node given shown

namespace Registry

/-- The ids that go with a thing: its own and those of its methods. -/
def departing (reg : Registry R) : Entity R → List NodeId
  | .classBox node => node.id :: (reg.methodsOf node.id).map Method.id
  | .methodRow method => [method.id]
  | .standaloneBox node => [node.id]

/-- The resources of a thing and of its methods. -/
def belongings (reg : Registry R) : Entity R → List Slot
  | .classBox node => node.slots ++ (reg.methodsOf node.id).flatMap Method.slots
  | .methodRow method => method.slots
  | .standaloneBox node => node.slots

/-- The resources that go with a thing: its own, and the lines of the edges at
what goes. -/
def released (reg : Registry R) (entity : Entity R) : List Slot :=
  reg.belongings entity ++
    (reg.edges.items.filter fun edge =>
      edge.meets (reg.departing entity)).flatMap Edge.slots

/-- The number stood for what is brought up to date with a class: for its
outline, or for the label of a row that has another one now. -/
inductive Outdated (reg : Registry R) (owner? : Option NodeId) (left : Registry R)
    (number : ResourceId) : Prop where
  | outline (node : ClassNode R) (mem : node ∈ reg.classes.items)
      (owns : some node.id = owner?) (outlined : number ∈ node.outline)
  | label (row renewed : Method) (mem : row ∈ reg.methods.items)
      (owned : some row.classId = owner?) (renewedMem : renewed ∈ left.methods.items)
      (same : renewed.id = row.id) (labelled : number ∈ row.label)
      (other : renewed.label ≠ row.label)

/-- The pool of a map that a thing has left: exactly its resources are gone, and
only labels of rows that are shown again are new. -/
structure LetsGo (reg : Registry R) (entity : Entity R) (left : Registry R) : Prop where
  gone : ∀ slot ∈ reg.released entity,
    reg.pool.contains slot.1 = true ∧ left.pool.contains slot.1 = false
  kept : ∀ number ≤ reg.pool.lastId, number ∉ (reg.released entity).map Prod.fst →
    ¬ reg.Outdated entity.owner? left number →
      left.pool.get? number = reg.pool.get? number
  fresh : ∀ number resource, reg.pool.lastId < number →
    left.pool.get? number = some resource →
      ∃ row ∈ left.methods.items, some row.classId = entity.owner? ∧
        row ∉ reg.methods.items ∧ row.label = some number ∧
        resource = reg.nameplate row.labelText

/-- A map that a thing has left, and nothing else. -/
structure Loses (reg : Registry R) (entity : Entity R) (left : Registry R) : Prop where
  frame : (left.perspective, left.setup) = (reg.perspective, reg.setup)
  edges : left.edges.items =
    reg.edges.items.filter fun edge => !edge.meets (reg.departing entity)
  standalone : left.standalone.items =
    reg.standalone.items.filter fun node => !(reg.departing entity).contains node.id
  classes : left.classes.items =
    (reg.classes.items.filter fun node =>
      !(reg.departing entity).contains node.id).map fun node =>
        if some node.id = entity.owner? then
          node.without (reg.departing entity)
            (reg.metrics.boxSize reg.text node.headerText
              ((left.visibleMethods node.id).map Method.labelText))
        else node
  methods : List.Forall₂
    (fun row kept => kept = row ∨ ∃ node ∈ left.classes.items, some node.id = entity.owner? ∧
      node.id = row.classId ∧ row.ShownAgain node reg.pool.lastId kept)
    (reg.methods.items.filter fun row => !(reg.departing entity).contains row.id)
    left.methods.items
  /-- The owner of a method that goes shows what it asks for. -/
  owner : ∀ node ∈ left.classes.items, some node.id = entity.owner? →
    (∀ row ∈ left.methods.items, row.classId = node.id → row.Current node) ∧
      ∃ outline, node.outline = some outline ∧
        left.pool.shape? outline = some (reg.metrics.outline node.size)
  pool : reg.LetsGo entity left

/-! ## Edges and pools -/

section
omit [Scalar R]

theorem drops_deleteClass {node : ClassNode R} (found : reg.classes.get? node.id = some node) :
    reg.pool.Drops (reg.released (.classBox node)) (reg.deleteClass node).pool := by
  have rows : reg.methodsOf node.id = node.methods.filterMap reg.methods.get? := by
    rw [methodsOf, found]
  have box := (Pool.drops_releaseSlot reg.pool .label node.headerLabel).trans
    (Pool.drops_releaseSlot _ .shape node.outline)
  have whole := box.trans (Pool.drops_releaseSlots .label Method.label
    (node.methods.filterMap reg.methods.get?) _)
  rw [released, departing, belongings, rows]
  exact whole.trans (Pool.drops_releaseSlots .shape Edge.geometry _ _)

theorem drops_withoutMethod (reg : Registry R) (method : Method) :
    reg.pool.Drops (reg.released (.methodRow method))
      (reg.withoutMethod method).pool :=
  (Pool.drops_releaseSlot reg.pool .label method.label).trans
    (Pool.drops_releaseSlots .shape Edge.geometry _ _)

theorem drops_deleteStandalone (reg : Registry R) (node : StandaloneNode R) :
    reg.pool.Drops (reg.released (.standaloneBox node))
      (reg.deleteStandalone node).pool :=
  ((Pool.drops_releaseSlot reg.pool .label node.label).trans
    (Pool.drops_releaseSlot _ .shape node.outline)).trans
      (Pool.drops_releaseSlots .shape Edge.geometry _ _)

theorem mem_slots_of_released {id : NodeId} {entity : Entity R}
    (named : reg.entity? id = some entity) {slot : Slot}
    (mem : slot ∈ reg.released entity) : slot ∈ reg.slots := by
  rcases List.mem_append.mp mem with own | line
  · rcases reg.entity?_cases id with ⟨node, found, isNode⟩ | ⟨method, _, found, isMethod⟩ |
        ⟨node, _, _, found, isNode⟩ | ⟨_, _, _, isNothing⟩
    · obtain rfl := Option.some.inj (named.symm.trans isNode)
      rcases List.mem_append.mp own with box | rows
      · exact mem_slots_of_class (Store.mem_of_get? found) box
      · obtain ⟨row, listed, label⟩ := List.mem_flatMap.mp rows
        have nodeId : node.id = id := Store.key_of_get? found
        rw [methodsOf, nodeId, found] at listed
        obtain ⟨rowId, _, rowFound⟩ := List.mem_filterMap.mp listed
        exact mem_slots_of_method (Store.mem_of_get? rowFound) label
    · obtain rfl := Option.some.inj (named.symm.trans isMethod)
      exact mem_slots_of_method (Store.mem_of_get? found) own
    · obtain rfl := Option.some.inj (named.symm.trans isNode)
      simp only [slots, List.mem_append, List.mem_flatMap]
      exact Or.inl (Or.inr ⟨node, Store.mem_of_get? found, own⟩)
    · rw [isNothing] at named
      cases named
  · obtain ⟨edge, edgeMem, geometry⟩ := List.mem_flatMap.mp line
    simp only [slots, List.mem_append, List.mem_flatMap]
    exact Or.inr ⟨edge, (List.mem_filter.mp edgeMem).1, geometry⟩

theorem Balanced.contains_of_mem_slots {lent : List Slot} (balanced : reg.Balanced lent)
    {slot : Slot} (mem : slot ∈ reg.slots) :
    reg.pool.contains slot.1 = true := by
  have live := Pool.Holds.get?_iff balanced |>.mpr (List.mem_append_left lent mem)
  rw [Pool.contains, ← Option.isSome_map, live, Option.isSome_some]

/-- Numbers that are not given out stand for nothing. -/
theorem Balanced.le_lastId {lent : List Slot} (balanced : reg.Balanced lent)
    {number : ResourceId} {resource : Resource R}
    (live : reg.pool.get? number = some resource) : number ≤ reg.pool.lastId :=
  balanced.bound _ (Pool.Holds.get?_iff balanced |>.mp (congrArg (Option.map Resource.kind) live))

end

/-- Without a class to bring up to date, the pool lets go and does no more. -/
theorem Balanced.letsGo_of_drops {reg left : Registry R} {lent : List Slot} {id : NodeId}
    {entity : Entity R} (balanced : reg.Balanced lent)
    (named : reg.entity? id = some entity)
    (drops : reg.pool.Drops (reg.released entity) left.pool) :
    reg.LetsGo entity left := by
  constructor
  · intro slot mem
    refine ⟨balanced.contains_of_mem_slots (mem_slots_of_released named mem), ?_⟩
    rw [Pool.contains, drops.gone _ (List.mem_map_of_mem mem), Option.isSome_none]
  · exact fun number _ absent _ => drops.kept number absent
  · intro number resource new live
    by_cases mem : number ∈ (reg.released entity).map Prod.fst
    · rw [drops.gone number mem] at live
      cases live
    · rw [drops.kept number mem] at live
      exact absurd (balanced.le_lastId live) (Nat.not_le_of_lt new)

/-! ## Classes and standalone nodes -/

theorem Reachable.loses_classBox (reachable : reg.Reachable drawn)
    (single : ∀ id, ¬ reg.Doubled id) {node : ClassNode R}
    (found : reg.classes.get? node.id = some node) :
    reg.Loses (.classBox node) (reg.deleteClass node) := by
  have coherent := reachable.coherent
  have nodeMem := Store.mem_of_get? found
  have named : reg.entity? node.id = some (.classBox node) := by rw [entity?, found]
  have going : reg.departing (.classBox node) = node.id :: node.methods := by
    rw [departing, methodsOf, found]
    exact congrArg (node.id :: ·) (coherent.map_id_rows nodeMem)
  constructor
  · rfl
  · rw [departing, methodsOf, found]
    rfl
  · have noStandalone := coherent.standalone_eq_nil (Store.mem_keys_of_get? found)
    rw [noStandalone]
    exact noStandalone
  · -- No row of the class is a class itself.
    have others : (reg.deleteClass node).classes.items = reg.classes.items.filter
        fun other => !(reg.departing (.classBox node)).contains other.id := by
      apply List.filter_congr
      intro other otherMem
      have noRow : other.id ∉ node.methods := by
        intro listed
        obtain ⟨row, rowMem, rowId, _⟩ := coherent.member node nodeMem _ listed
        exact single other.id ⟨Store.key_mem_keys otherMem,
          Store.mem_keys_iff.mpr ⟨row, rowMem, rowId⟩⟩
      have isKey : Keyed.key other = other.id := rfl
      by_cases same : other.id = node.id
      · simp [going, isKey, same]
      · simp [going, isKey, same, noRow]
    rw [others]
    simp [Entity.owner?]
  · have others : (reg.deleteClass node).methods.items = reg.methods.items.filter
        fun row => !(reg.departing (.classBox node)).contains row.id := by
      rw [going]
      refine (Store.items_foldl_erase _).trans (List.filter_congr ?_)
      intro row rowMem
      have noClass : row.id ≠ node.id := by
        intro same
        exact single row.id ⟨same ▸ Store.key_mem_keys nodeMem, Store.key_mem_keys rowMem⟩
      have isKey : Keyed.key row = row.id := rfl
      simp [noClass, isKey]
    rw [others]
    exact List.forall₂_same.mpr fun _ _ => Or.inl rfl
  · exact fun _ _ owned => by cases owned
  · exact reachable.balanced.letsGo_of_drops named (drops_deleteClass found)

theorem Reachable.loses_standaloneBox (reachable : reg.Reachable drawn)
    {node : StandaloneNode R} (found : reg.standalone.get? node.id = some node) :
    reg.Loses (.standaloneBox node) (reg.deleteStandalone node) := by
  have known := Store.mem_keys_of_get? found
  obtain ⟨noClass, noMethod⟩ := reachable.coherent.standalone_apart known
  have named : reg.entity? node.id = some (.standaloneBox node) := by
    rw [entity?, Store.get?_eq_none_iff.mpr noClass, Store.get?_eq_none_iff.mpr noMethod, found]
    rfl
  have onlyThis : ∀ id ∈ reg.departing (.standaloneBox node), id = node.id :=
    fun _ going => List.mem_singleton.mp going
  have standalone : (reg.deleteStandalone node).standalone.items =
      reg.standalone.items.filter fun other =>
        !(reg.departing (.standaloneBox node)).contains other.id :=
    Store.items_foldl_erase [node.id]
  have classes : (reg.classes.items.filter fun other =>
      !(reg.departing (.standaloneBox node)).contains other.id) = reg.classes.items :=
    Store.filter_of_absent fun id going => onlyThis id going ▸ noClass
  have methods : (reg.methods.items.filter fun row =>
      !(reg.departing (.standaloneBox node)).contains row.id) = reg.methods.items :=
    Store.filter_of_absent fun id going => onlyThis id going ▸ noMethod
  constructor
  · rfl
  · rfl
  · exact standalone
  · rw [classes]
    exact (List.map_id _).symm
  · rw [methods]
    exact List.forall₂_same.mpr fun _ _ => Or.inl rfl
  · exact fun _ _ owned => by cases owned
  · exact reachable.balanced.letsGo_of_drops named (drops_deleteStandalone reg node)

/-! ## Methods -/

section
omit [Scalar R]

theorem get?_classes_withoutMethod {owner : ClassNode R}
    (found : reg.classes.get? method.classId = some owner) :
    (reg.withoutMethod method).classes.get? method.classId =
      some (owner.without [method.id] owner.size) := by
  have changed : (reg.withoutMethod method).classes.get? method.classId = some { owner with
      methods := owner.methods.filter (· ≠ method.id)
      focusedMethod := owner.focusedMethod.filter (· ≠ method.id) } := by
    have modified : (reg.withoutMethod method).classes.get? method.classId =
        if method.classId = method.classId then (reg.classes.get? method.classId).map _
        else reg.classes.get? method.classId :=
      Store.get?_modify fun _ same => same
    rw [modified, if_pos rfl, found, Option.map_some]
  rw [changed]
  simp [ClassNode.without]

theorem get?_classes_withoutMethod_of_ne {id : NodeId} (different : id ≠ method.classId) :
    (reg.withoutMethod method).classes.get? id = reg.classes.get? id := by
  have modified : (reg.withoutMethod method).classes.get? id =
      if id = method.classId then _ else reg.classes.get? id :=
    Store.get?_modify fun _ same => same
  rw [modified, if_neg different]

/-- A sibling of a method that goes stays as it is or is shown again. -/
theorem eq_or_shownAgain_of_renewed {owner node : ClassNode R} {method row renewed : Method}
    {given : ResourceId} (renews : row.Renewed node given renewed) (current : row.Current owner)
    (different : row.id ≠ method.id) (name : node.name = owner.name)
    (toggles : node.toggles = owner.toggles)
    (focus : node.focusedMethod = owner.focusedMethod.filter (· ≠ method.id)) :
    renewed = row ∨ row.ShownAgain node given renewed := by
  have labelled : row.Labelled node ↔ row.Labelled owner := by
    rw [Method.Labelled, Method.Labelled, name, toggles]
  cases visible : row.visible with
  | true =>
    left
    have asked : row.isShown node.toggles node.focusedMethod = true := by
      rw [toggles, focus]
      exact isShown_of_filter_focus different (current.visible.symm.trans visible) (Or.inr rfl)
    exact renews.eq_of_current ⟨visible.trans asked.symm, fun shown =>
      labelled.mpr (current.labelled shown)⟩
  | false =>
    cases asked : row.isShown node.toggles node.focusedMethod with
    | true => exact Or.inr ⟨visible, asked, renews⟩
    | false =>
      left
      apply renews.eq_of_current ⟨visible.trans asked.symm, _⟩
      rw [visible]
      intro shown
      cases shown

end

section

variable (reachable : reg.Reachable drawn)
include reachable

theorem Reachable.refreshes_deleteMethod (mem : method ∈ reg.methods.items) :
    (reg.withoutMethod method).Refreshes [method.classId] (reg.deleteMethod method) :=
  (reachable.balanced.withoutMethod reachable.coherent mem).refreshes
    (reachable.coherent.withoutMethod mem) (List.nodup_singleton _)

variable (found : reg.methods.get? method.id = some method)
  (noClass : reg.classes.get? method.id = none)
include found noClass

theorem Reachable.deleteMethod : (reg.deleteMethod method).Reachable drawn := by
  have same : reg.apply (.deleteNode method.id) = reg.deleteMethod method := by
    simp only [Registry.apply, deleteNode, noClass, found]
  exact same ▸ reachable.operate (.deleteNode method.id) (Or.inr rfl)

/-- The owner keeps its place, its label and its outline, and gets the size that
its rows ask for. -/
theorem Reachable.owner_deleteMethod {owner : ClassNode R}
    (ownerFound : reg.classes.get? method.classId = some owner) :
    (reg.deleteMethod method).classes.get? method.classId =
      some (owner.without [method.id] (reg.metrics.boxSize reg.text owner.headerText
        (((reg.deleteMethod method).visibleMethods owner.id).map Method.labelText))) := by
  have left := reachable.deleteMethod found noClass
  have refreshes := reachable.refreshes_deleteMethod (Store.mem_of_get? found)
  obtain ⟨box, boxFound, draws, _⟩ := refreshes.classes (get?_classes_withoutMethod ownerFound)
  obtain ⟨headed, outlined⟩ :=
    reachable.settled.boxes owner (Store.mem_of_get? ownerFound) List.not_mem_nil
  have boxMem := Store.mem_of_get? boxFound
  have same : box = owner.without [method.id] box.size := by
    have drawnSame := draws.same
    rwa [draws.header headed, draws.outline outlined] at drawnSame
  have size : box.size = reg.metrics.boxSize reg.text owner.headerText
      (((reg.deleteMethod method).visibleMethods owner.id).map Method.labelText) := by
    have boxId : box.id = owner.id := by
      rw [same]
      rfl
    have header : box.headerText = owner.headerText := by
      rw [same]
      rfl
    obtain ⟨_, text, metrics, _⟩ : _ ∧ (reg.deleteMethod method).text = reg.text ∧
      (reg.deleteMethod method).metrics = reg.metrics ∧ _ := refreshes.frame
    rw [← boxId, ← header, ← metrics, ← text]
    exact left.size_eq boxMem
  rw [boxFound, same, size]

theorem Reachable.rows_deleteMethod :
    List.Forall₂
      (fun row kept => kept = row ∨ ∃ node ∈ (reg.deleteMethod method).classes.items,
        node.id = method.classId ∧ node.id = row.classId ∧ row.ShownAgain node reg.pool.lastId kept)
      (reg.methods.erase method.id).items (reg.deleteMethod method).methods.items := by
  have mem := Store.mem_of_get? found
  have refreshes := reachable.refreshes_deleteMethod mem
  have coherent := reachable.coherent.withoutMethod mem
  have numbers := (reg.drops_withoutMethod method).numbers
  have sameKeys : (reg.deleteMethod method).methods.keys =
      (reg.withoutMethod method).methods.keys := by
    rw [← keys_bare_methods, refreshes.bare, keys_bare_methods]
  apply Store.forall₂_of_get? coherent.methodKeys sameKeys
  intro id row rowFound
  have rowId : row.id = id := Store.key_of_get? rowFound
  obtain ⟨oldMem, different⟩ := Store.mem_erase.mp (Store.mem_of_get? rowFound)
  obtain ⟨owner, ownerMem, ownerId, _⟩ := reachable.coherent.owner row oldMem
  by_cases sibling : row.classId = method.classId
  · have ownerFound : reg.classes.get? method.classId = some owner :=
      (Store.get?_eq_some_iff reachable.coherent.classKeys).mpr ⟨ownerMem, ownerId.trans sibling⟩
    have strippedFound := get?_classes_withoutMethod ownerFound
    rw [← sibling] at strippedFound
    obtain ⟨renewed, renewedFound, _, renews⟩ := refreshes.methods rowFound strippedFound
    refine ⟨renewed, renewedFound, ?_⟩
    have boxFound := reachable.owner_deleteMethod found noClass ownerFound
    have renewsBox := renews (List.mem_singleton.mpr sibling)
    rw [numbers] at renewsBox
    have current := reachable.row_current ownerMem oldMem ownerId.symm
    have unfocused : (owner.without [method.id] owner.size).focusedMethod =
        owner.focusedMethod.filter (· ≠ method.id) := by
      simp [ClassNode.without]
    rcases eq_or_shownAgain_of_renewed renewsBox current different rfl rfl unfocused with
      same | ⟨wasHidden, asked, renewed⟩
    · exact Or.inl same
    · refine Or.inr ⟨_, Store.mem_of_get? boxFound, ?_, ?_, wasHidden, asked,
        renewed.of_same rfl rfl rfl⟩
      · exact ownerId.trans sibling
      · exact ownerId
  · have stillFound : (reg.withoutMethod method).classes.get? row.classId = some owner := by
      rw [get?_classes_withoutMethod_of_ne sibling]
      exact (Store.get?_eq_some_iff reachable.coherent.classKeys).mpr ⟨ownerMem, ownerId⟩
    obtain ⟨kept, keptFound, same, _⟩ := refreshes.methods rowFound stillFound
    exact ⟨kept, keptFound, Or.inl (same (by simpa using sibling))⟩

/-- The resources of a method and of the edges at it are given back. -/
theorem Reachable.gone_deleteMethod {slot : Slot}
    (released : slot ∈ reg.released (.methodRow method)) :
    reg.pool.contains slot.1 = true ∧
      (reg.deleteMethod method).pool.contains slot.1 = false := by
  have drops := reg.drops_withoutMethod method
  have refreshes := reachable.refreshes_deleteMethod (Store.mem_of_get? found)
  have named : reg.entity? method.id = some (.methodRow method) := by
    rw [entity?, noClass, found]
  have owned := mem_slots_of_released named released
  refine ⟨reachable.balanced.contains_of_mem_slots owned, ?_⟩
  have given : slot.1 ≤ (reg.withoutMethod method).pool.lastId := by
    rw [drops.numbers]
    exact reachable.balanced.bound _ (List.mem_append_left _ owned)
  -- A number that was given once is not given again, so bringing the owner up to
  -- date cannot revive it.
  cases live : (reg.deleteMethod method).pool.get? slot.1 with
  | none => rw [Pool.contains, live, Option.isSome_none]
  | some resource =>
    obtain ⟨old, oldLive, _⟩ := refreshes.pool.keeps.kept _ given resource live
    rw [drops.gone _ (List.mem_map_of_mem released)] at oldLive
    cases oldLive

/-- Every other resource stays, but for the outline and the labels of the owner that
are made anew. -/
theorem Reachable.kept_deleteMethod {number : ResourceId} (given : number ≤ reg.pool.lastId)
    (notReleased : number ∉ (reg.released (.methodRow method)).map Prod.fst)
    (notOutdated : ¬ reg.Outdated (some method.classId) (reg.deleteMethod method) number) :
    (reg.deleteMethod method).pool.get? number = reg.pool.get? number := by
  have mem := Store.mem_of_get? found
  have left := reachable.deleteMethod found noClass
  have drops := reg.drops_withoutMethod method
  have refreshes := reachable.refreshes_deleteMethod mem
  have coherent := reachable.coherent.withoutMethod mem
  have balanced := reachable.balanced.withoutMethod reachable.coherent mem
  rw [← drops.kept number notReleased]
  apply refreshes.get?_pool coherent balanced left.balanced
  · rw [drops.numbers]
    exact given
  · intro node nodeMem listed outlined
    rw [List.mem_singleton] at listed
    rcases Store.mem_modify.mp nodeMem with ⟨owner, ownerMem, ownerId, rfl⟩ | ⟨_, different⟩
    · exact notOutdated (.outline owner ownerMem (congrArg some ownerId) outlined)
    · exact different listed
  · intro id row renewed rowFound renewedFound labelled
    by_contra other
    have rowId : row.id = id := Store.key_of_get? rowFound
    have renewedId : renewed.id = id := Store.key_of_get? renewedFound
    obtain ⟨owner, ownerMem, ownerId, _⟩ := coherent.owner row (Store.mem_of_get? rowFound)
    obtain ⟨last, lastFound, same, _⟩ := refreshes.methods rowFound
      ((Store.get?_eq_some_iff coherent.classKeys).mpr ⟨ownerMem, ownerId⟩)
    obtain rfl := Option.some.inj (lastFound.symm.trans renewedFound)
    have sibling : row.classId = method.classId := by
      by_contra foreign
      exact other (congrArg Method.label (same (by simpa using foreign)))
    exact notOutdated (.label row last (Store.mem_erase.mp (Store.mem_of_get? rowFound)).1
      (congrArg some sibling) (Store.mem_of_get? lastFound) (renewedId.trans rowId.symm) labelled
      other)

/-- What is new is the label of a sibling that is shown again. -/
theorem Reachable.fresh_deleteMethod {number : ResourceId} {resource : Resource R}
    (new : reg.pool.lastId < number)
    (live : (reg.deleteMethod method).pool.get? number = some resource) :
    ∃ row ∈ (reg.deleteMethod method).methods.items, row.classId = method.classId ∧
      row ∉ reg.methods.items ∧ row.label = some number ∧
      resource = reg.nameplate row.labelText := by
  have mem := Store.mem_of_get? found
  have left := reachable.deleteMethod found noClass
  have drops := reg.drops_withoutMethod method
  have refreshes := reachable.refreshes_deleteMethod mem
  have coherent := reachable.coherent.withoutMethod mem
  have balanced := reachable.balanced.withoutMethod reachable.coherent mem
  have boxes : ∀ node ∈ (reg.withoutMethod method).classes.items,
      node.headerLabel.isSome = true ∧ node.outline.isSome = true := by
    intro node nodeMem
    rcases Store.mem_modify.mp nodeMem with ⟨owner, ownerMem, _, rfl⟩ | ⟨nodeMem, _⟩
    · exact reachable.settled.boxes owner ownerMem List.not_mem_nil
    · exact reachable.settled.boxes node nodeMem List.not_mem_nil
  obtain ⟨row, rowMem, labelled⟩ := refreshes.exists_label_of_new coherent balanced
    left.balanced boxes (drops.numbers ▸ new) live
  obtain ⟨old, oldMem, _, oldOwner, same⟩ := refreshes.exists_row coherent rowMem
  have notOld : row ∉ reg.methods.items := by
    intro before
    have slotMem : (number, ResourceKind.label) ∈ reg.slots :=
      mem_slots_of_method before (Slot.mem_filled_iff.mpr ⟨labelled, rfl⟩)
    exact Nat.not_le_of_lt new (reachable.balanced.bound _ (List.mem_append_left _ slotMem))
  have sibling : row.classId = method.classId := by
    by_contra foreign
    rw [same (by simpa [oldOwner] using foreign)] at notOld
    exact notOld (Store.mem_erase.mp oldMem).1
  obtain ⟨_, text, metrics, _⟩ := refreshes.frame
  have shows := (left.depicted.rows row rowMem number labelled).only resource live
  refine ⟨row, rowMem, sibling, notOld, labelled, ?_⟩
  rw [shows, nameplate, nameplate, text, metrics]
  rfl

theorem Reachable.letsGo_methodRow :
    reg.LetsGo (.methodRow method) (reg.deleteMethod method) := by
  constructor
  · exact fun _ released => reachable.gone_deleteMethod found noClass released
  · exact fun _ given notReleased notOutdated =>
      reachable.kept_deleteMethod found noClass given notReleased notOutdated
  · intro number resource new live
    obtain ⟨row, rowMem, sibling, fresh⟩ := reachable.fresh_deleteMethod found noClass new live
    exact ⟨row, rowMem, congrArg some sibling, fresh⟩

/-- The owner is brought up to date, and every other class stays. -/
theorem Reachable.classes_deleteMethod :
    (reg.deleteMethod method).classes.items = reg.classes.items.map fun node =>
      if some node.id = some method.classId then
        node.without [method.id] (reg.metrics.boxSize reg.text node.headerText
          (((reg.deleteMethod method).visibleMethods node.id).map Method.labelText))
      else node := by
  have refreshes := reachable.refreshes_deleteMethod (Store.mem_of_get? found)
  have sameKeys : (reg.deleteMethod method).classes.keys = reg.classes.keys := by
    rw [← keys_bare_classes, refreshes.bare, keys_bare_classes, keys_classes_withoutMethod]
  rw [eq_comm, ← List.forall₂_eq_eq_eq, List.forall₂_map_left_iff]
  apply Store.forall₂_of_get? reachable.coherent.classKeys sameKeys
  intro id node nodeFound
  have nodeId : node.id = id := Store.key_of_get? nodeFound
  by_cases owns : id = method.classId
  · subst owns
    rw [if_pos (congrArg some nodeId)]
    exact ⟨_, reachable.owner_deleteMethod found noClass nodeFound, rfl⟩
  · rw [if_neg fun same => owns (nodeId.symm.trans (Option.some.inj same))]
    have still : (reg.withoutMethod method).classes.get? id = some node := by
      rw [get?_classes_withoutMethod_of_ne owns, nodeFound]
    obtain ⟨box, boxFound, _, same⟩ := refreshes.classes still
    exact ⟨box, boxFound, (same (by simpa using owns)).symm⟩

theorem Reachable.loses_methodRow :
    reg.Loses (.methodRow method) (reg.deleteMethod method) := by
  have mem := Store.mem_of_get? found
  have left := reachable.deleteMethod found noClass
  have refreshes := reachable.refreshes_deleteMethod mem
  have onlyThis : ∀ id ∈ reg.departing (.methodRow method), id = method.id :=
    fun _ going => List.mem_singleton.mp going
  have spared : (reg.classes.items.filter fun node =>
      !(reg.departing (.methodRow method)).contains node.id) = reg.classes.items :=
    Store.filter_of_absent fun id going => onlyThis id going ▸ Store.get?_eq_none_iff.mp noClass
  have siblings : (reg.methods.erase method.id).items = reg.methods.items.filter
      fun row => !(reg.departing (.methodRow method)).contains row.id :=
    Store.items_foldl_erase [method.id]
  have frame := refreshes.frame
  constructor
  · obtain ⟨perspective, text, metrics, toggles⟩ := frame
    rw [setup, setup, perspective, text, metrics, toggles]
    rfl
  · rw [refreshes.edges]
    rfl
  · rw [refreshes.standalone]
    refine (Store.filter_of_absent fun id going isStandalone => ?_).symm
    rw [onlyThis id going] at isStandalone
    exact (reachable.coherent.standalone_apart isStandalone).2 (Store.mem_keys_of_get? found)
  · rw [spared]
    exact reachable.classes_deleteMethod found noClass
  · rw [← siblings]
    refine (reachable.rows_deleteMethod found noClass).imp ?_
    rintro row kept (same | ⟨node, nodeMem, owns, ownerId, again⟩)
    · exact Or.inl same
    · exact Or.inr ⟨node, nodeMem, congrArg some owns, ownerId, again⟩
  · intro node nodeMem _
    obtain ⟨_, _, metrics, _⟩ := frame
    have outlined := left.exists_outline nodeMem
    rw [metrics] at outlined
    exact ⟨fun row rowMem owned => left.row_current nodeMem rowMem owned, outlined⟩
  · exact reachable.letsGo_methodRow found noClass

end

/-! ## Whatever an id names -/

/-- Exactly the nodes that go are off the map. -/
theorem Loses.containsNode_iff {reg left : Registry R} {entity : Entity R}
    (loses : reg.Loses entity left) (id : NodeId) :
    left.containsNode id = true ↔
      reg.containsNode id = true ∧ id ∉ reg.departing entity := by
  have classes : left.classes.keys = (reg.classes.items.filter fun node =>
      !(reg.departing entity).contains node.id).map Keyed.key := by
    rw [Store.keys, loses.classes, List.map_map]
    apply List.map_congr_left
    intro node _
    by_cases owns : some node.id = entity.owner?
    · rw [Function.comp_apply, if_pos owns]
      rfl
    · rw [Function.comp_apply, if_neg owns]
  have methods : (reg.methods.items.filter fun row =>
      !(reg.departing entity).contains row.id).map Keyed.key = left.methods.keys := by
    rw [Store.keys, ← List.forall₂_eq_eq_eq, List.forall₂_map_left_iff, List.forall₂_map_right_iff]
    refine loses.methods.imp ?_
    rintro row kept (rfl | ⟨_, _, _, _, _, _, renewed⟩)
    · rfl
    · cases renewed <;> rfl
  have standalone : left.standalone.keys = (reg.standalone.items.filter fun node =>
      !(reg.departing entity).contains node.id).map Keyed.key :=
    congrArg (List.map Keyed.key) loses.standalone
  rw [Registry.containsNode_iff, Registry.containsNode_iff, classes, ← methods, standalone,
    or_and_right, or_and_right]
  exact or_congr Store.mem_keys_filter (or_congr Store.mem_keys_filter Store.mem_keys_filter)

/-- On every reachable map where no id names a class and a method at once:
deleting an id tells whether it is on the map; if it is not, nothing changes; if
it names something, then that leaves the map and nothing else; and the pool holds
what is on the map or lent to a call diagram, and nothing else. -/
theorem deleteNode_exact {registry : Registry R} {drawn : Option (SequenceView R)}
    (reachable : registry.Reachable drawn) (single : ∀ id, ¬ registry.Doubled id) (id : NodeId) :
    ((registry.deleteNode id).1 = true ↔ id ∈ registry.classes.keys ∨
      id ∈ registry.methods.keys ∨ id ∈ registry.standalone.keys) ∧
    (registry.entity? id = none → (registry.deleteNode id).2 = registry) ∧
    (∀ entity, registry.entity? id = some entity →
      registry.Loses entity (registry.deleteNode id).2 ∧
      ∀ other, (registry.deleteNode id).2.containsNode other = true ↔
        registry.containsNode other = true ∧ other ∉ registry.departing entity) ∧
    (registry.deleteNode id).2.Balanced (lentTo drawn) := by
  refine ⟨?_, ?_, ?_, (reachable.operate (.deleteNode id) (Or.inr rfl)).balanced⟩
  · rw [deleteNode_fst, containsNode_iff]
  · intro unnamed
    rw [deleteNode_eq, unnamed, Option.elim_none]
  · intro entity named
    have loses : registry.Loses entity (registry.deleteNode id).2 := by
      rw [deleteNode_eq, named, Option.elim_some]
      rcases registry.entity?_cases id with ⟨node, found, isNode⟩ |
          ⟨method, noClass, found, isMethod⟩ | ⟨node, _, _, found, isNode⟩ | ⟨_, _, _, isNothing⟩
      · obtain rfl := Option.some.inj (named.symm.trans isNode)
        obtain rfl : node.id = id := Store.key_of_get? found
        exact reachable.loses_classBox single found
      · obtain rfl := Option.some.inj (named.symm.trans isMethod)
        obtain rfl : method.id = id := Store.key_of_get? found
        exact reachable.loses_methodRow found noClass
      · obtain rfl := Option.some.inj (named.symm.trans isNode)
        obtain rfl : node.id = id := Store.key_of_get? found
        exact reachable.loses_standaloneBox found
      · rw [isNothing] at named
        cases named
    exact ⟨loses, loses.containsNode_iff⟩

/-- A class with two methods, one of which calls the other. -/
def siblings : Registry Float32 :=
  Engine.sampleStart.registry.apply (.addData
    [⟨"shop", ["Class"], []⟩, ⟨"order", ["Method"], []⟩, ⟨"confirm", ["Method"], []⟩]
    [⟨"1", "HAS_METHOD", "shop", "order", []⟩, ⟨"2", "HAS_METHOD", "shop", "confirm", []⟩,
      ⟨"3", "CALLS", "order", "confirm", []⟩])

theorem reachable_siblings : siblings.Reachable none :=
  (Reachable.create _ _ _).operate (.addData _ _) (Or.inl rfl)

theorem keys_siblings :
    siblings.classes.keys = ["shop"] ∧ siblings.methods.keys = ["order", "confirm"] := by
  have start := coherent_create Engine.sampleStart.registry.metrics
    Engine.sampleStart.registry.defaultToggles Engine.sampleStart.registry.text
  obtain ⟨classes, methods⟩ := start.keys_addData rfl
    [⟨"shop", ["Class"], []⟩, ⟨"order", ["Method"], []⟩, ⟨"confirm", ["Method"], []⟩]
    [⟨"1", "HAS_METHOD", "shop", "order", []⟩, ⟨"2", "HAS_METHOD", "shop", "confirm", []⟩,
      ⟨"3", "CALLS", "order", "confirm", []⟩]
  exact ⟨classes.trans (by decide), methods.trans (by decide)⟩

/-- A method is deleted while it has the focus. -/
theorem deleteNode_exact_sample :
    let registry := siblings.apply (.focusMethod "order")
    (∀ id, ¬ registry.Doubled id) ∧
    ∃ method, registry.entity? "order" = some (.methodRow method) ∧
      registry.Loses (.methodRow method) (registry.deleteNode "order").2 := by
  intro registry
  have coherent := reachable_siblings.coherent
  have reachable : registry.Reachable none :=
    reachable_siblings.operate (.focusMethod "order") (Or.inl rfl)
  obtain ⟨classes, methods, _⟩ := (rowsChange_focusMethod coherent "order").keeps coherent
  have classKeys : registry.classes.keys = ["shop"] := classes.trans keys_siblings.1
  have methodKeys : registry.methods.keys = ["order", "confirm"] := by
    rw [← keys_bare_methods, ← keys_siblings.2, ← keys_bare_methods siblings]
    exact congrArg Store.keys methods
  have single : ∀ id, ¬ registry.Doubled id := by
    rintro id ⟨isClass, isMethod⟩
    rw [classKeys, List.mem_singleton] at isClass
    rw [methodKeys, isClass] at isMethod
    exact absurd isMethod (by decide)
  have noClass : registry.classes.get? "order" = none := by
    rw [Store.get?_eq_none_iff, classKeys]
    decide
  have isMethod : "order" ∈ registry.methods.keys := by
    rw [methodKeys]
    decide
  obtain ⟨method, found⟩ := Store.exists_get? isMethod
  have named : registry.entity? "order" = some (.methodRow method) := by
    rw [entity?, noClass, found]
  exact ⟨single, method, named, ((deleteNode_exact reachable single "order").2.2.1 _ named).1⟩

end Registry

end CodeAtlas
