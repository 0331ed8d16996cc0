import CodeAtlas.Proofs.Registry.Passes
import CodeAtlas.Proofs.Registry.Refresh

/-!
# A batch adds what it tells of

Under the technical perspective a batch brings its new classes, and those of its
new methods that a class on the map claims; under the architecture perspective it
brings its new nodes with a box of their own; and then it brings the edges that
have both their ends on the map.  What was on the map stays in its order as it
was.  Only classes that get new rows are brought up to date.
-/

namespace CodeAtlas

variable {R : Type} [Scalar R] {reg : Registry R}

/-- A class with the rows that claims give to it, in a box of the given size. -/
def ClassNode.grown (node : ClassNode R) (claims : List Relationship) (size : Vec R) :
    ClassNode R :=
  { node with
    methods := node.methods ++ rowsFor claims node.id
    size }

/-- What is related to a list in two parts, the first of which is determined. -/
theorem exists_append_of_forall₂ {α β : Type} {relation : α → β → Prop} {first second : List α}
    {related : List β} (holds : List.Forall₂ relation (first ++ second) related) {image : α → β}
    (determined : ∀ item ∈ first, ∀ other, relation item other → image item = other) :
    ∃ added, related = first.map image ++ added ∧ List.Forall₂ relation second added := by
  have head := List.forall₂_take first.length holds
  have tail := List.forall₂_drop first.length holds
  rw [List.take_left] at head
  rw [List.drop_left] at tail
  have same : first.map image = related.take first.length := by
    rw [← List.forall₂_eq_eq_eq, List.forall₂_map_left_iff]
    have within := (List.forall₂_and_left first _).mpr ⟨fun item mem => mem, head⟩
    exact within.imp fun item other ⟨mem, held⟩ => determined item mem other held
  exact ⟨_, by rw [same, List.take_append_drop], tail⟩

namespace Registry

/-! ## What a batch brings -/

/-- What a batch brings to the map of the technical perspective: new classes and,
by the claims that count, new methods. -/
structure GainsMembers (reg : Registry R) (nodes : List Node) (claims : List Relationship)
    (after : Registry R) : Prop where
  classes : ∃ added, after.classes.items = (reg.classes.items.map fun node =>
      if rowsFor claims node.id = [] then node
      else node.grown claims (reg.metrics.boxSize reg.text node.headerText
        ((after.visibleMethods node.id).map Method.labelText))) ++ added ∧
    added.map ClassNode.bare = (reg.newNodes (· == .classType) nodes).map fun node =>
      (ClassNode.ofNode node reg.defaultToggles).withRows claims
  methods : ∃ added, after.methods.items = reg.methods.items ++ added ∧
    added.map Method.bare =
      claims.filterMap (claimedMethod ⟨reg.newNodes (· == .method) nodes⟩)
  standalone : after.standalone = reg.standalone
  /-- Rows are shown as their classes ask for, in boxes that are drawn. -/
  shown : ∀ node ∈ after.classes.items,
    (∀ row ∈ after.methods.items, row.classId = node.id → row.Current node) ∧
      ∃ outline, node.outline = some outline ∧
        after.pool.shape? outline = some (reg.metrics.outline node.size)
  /-- Only the outlines of classes with new rows are drawn anew. -/
  pool : ∀ number ≤ reg.pool.lastId,
    (∀ node ∈ reg.classes.items, rowsFor claims node.id ≠ [] → number ∉ node.outline) →
      after.pool.get? number = reg.pool.get? number

/-- What a batch brings to the map of the architecture perspective. -/
structure GainsBoxes (reg : Registry R) (nodes : List Node) (after : Registry R) : Prop where
  classes : after.classes = reg.classes
  methods : after.methods = reg.methods
  standalone : ∃ added, after.standalone.items = reg.standalone.items ++ added ∧
    List.Forall₂ (reg.Boxed after.pool) (reg.newNodes NodeKind.isStandalone nodes) added
  pool : ∀ number ≤ reg.pool.lastId, after.pool.get? number = reg.pool.get? number

/-- What a batch brings, and the report that counts it. -/
structure Gains (reg : Registry R) (nodes : List Node) (links : List Relationship)
    (report : IngestReport) (after : Registry R) : Prop where
  frame : (after.perspective, after.setup) = (reg.perspective, reg.setup)
  technical : reg.perspective = .technical → reg.GainsMembers nodes
    (claimsOf after.classes.keys ((reg.newNodes (· == .method) nodes).map Node.id) links) after
  architecture : reg.perspective = .architecture → reg.GainsBoxes nodes after
  edges : after.edges.items = reg.edges.items ++
    (linksOf reg.edges.keys after.containsNode links).map Relationship.edge
  classesAdded : after.classes.size = reg.classes.size + report.classesAdded
  methodsAdded : after.methods.size = reg.methods.size + report.methodsAdded
  standaloneAdded : after.standalone.size = reg.standalone.size + report.standaloneAdded
  edgesAdded : after.edges.size = reg.edges.size + report.edgesAdded

/-! ## Classes and methods -/

/-- The map with the new classes and methods of a batch before they are shown. -/
def joined (reg : Registry R) (nodes : List Node) (claims : List Relationship) :
    Registry R :=
  { reg with
    classes := ⟨(reg.classes.items ++
      (reg.newNodes (· == NodeKind.classType) nodes).map fun node =>
        ClassNode.ofNode node reg.defaultToggles).map (ClassNode.withRows · claims)⟩
    methods := ⟨reg.methods.items ++
      claims.filterMap (claimedMethod ⟨reg.newNodes (· == .method) nodes⟩)⟩ }

theorem rowsFor_eq_nil_iff {claims : List Relationship} {classId : NodeId} :
    rowsFor claims classId = [] ↔ classId ∉ claims.map Relationship.source := by
  simp [rowsFor]

/-- Each claim that counts brings a method. -/
theorem length_claimedMethods (owners : List NodeId) (nodes : List Node)
    (links : List Relationship) :
    ((claimsOf owners (nodes.map Node.id) links).filterMap
      (claimedMethod ⟨nodes⟩)).length =
        (claimsOf owners (nodes.map Node.id) links).length := by
  rw [List.filterMap_length_eq_length]
  intro claim mem
  obtain ⟨_, _, _, waits⟩ := mem_claimsOf mem
  have waiting : claim.target ∈ (⟨nodes⟩ : Store Node).keys := waits
  obtain ⟨node, found⟩ := Store.exists_get? waiting
  rw [claimedMethod_of_waiting found, Option.isSome_some]

section Joined

variable {reg middle : Registry R} {drawn : Option (SequenceView R)} {nodes : List Node}
  {claims : List Relationship} {ids : List NodeId} {edges : Store Edge}
  (reachable : reg.Reachable drawn) (coherent : (reg.joined nodes claims).Coherent)
  (refreshes : (reg.joined nodes claims).Refreshes ids middle)
  (touched : ∀ id, id ∈ ids ↔ id ∈ (reg.newNodes (· == .classType) nodes).map Node.id ∨
    id ∈ claims.map Relationship.source)
  (next : { middle with edges }.Reachable drawn)

omit [Scalar R] in
include touched in
/-- A class that was on the map is brought up to date if it gets rows. -/
theorem mem_touched_iff {node : ClassNode R} (mem : node ∈ reg.classes.items) :
    node.id ∈ ids ↔ rowsFor claims node.id ≠ [] := by
  have old : node.id ∉ (reg.newNodes (· == .classType) nodes).map Node.id := by
    intro new
    obtain ⟨added, addedMem, same⟩ := List.mem_map.mp new
    have unknown := (List.mem_filter.mp addedMem).2
    have known : reg.containsNode node.id = true :=
      Registry.containsNode_iff.mpr (Or.inl (Store.key_mem_keys mem))
    simp [same, known] at unknown
  rw [touched, or_iff_right old, ne_eq, rowsFor_eq_nil_iff, not_not]

include coherent in
theorem get?_classes_joined {node : ClassNode R} (mem : node ∈ reg.classes.items) :
    (reg.joined nodes claims).classes.get? node.id = some (node.withRows claims) :=
  Store.get?_of_mem coherent.classKeys (List.mem_map_of_mem (List.mem_append_left _ mem))

include reachable coherent refreshes touched next in
/-- A class that was on the map stays as it was, or gets its rows and the size that
they ask for. -/
theorem get?_classes_middle {node : ClassNode R} (mem : node ∈ reg.classes.items) :
    middle.classes.get? node.id = some (if rowsFor claims node.id = [] then node
      else node.grown claims (reg.metrics.boxSize reg.text node.headerText
        ((middle.visibleMethods node.id).map Method.labelText))) := by
  obtain ⟨box, boxFound, draws, same⟩ := refreshes.classes (get?_classes_joined coherent mem)
  by_cases none : rowsFor claims node.id = []
  · have untouched : node.id ∉ ids := fun listed => (mem_touched_iff touched mem).mp listed none
    rw [if_pos none, boxFound, same untouched]
    simp [ClassNode.withRows, none]
  · obtain ⟨headed, outlined⟩ := reachable.settled.boxes node mem List.not_mem_nil
    have grown : box = node.grown claims box.size := by
      have drawnSame := draws.same
      rwa [draws.header headed, draws.outline outlined] at drawnSame
    have size : box.size = reg.metrics.boxSize reg.text node.headerText
        ((middle.visibleMethods node.id).map Method.labelText) := by
      obtain ⟨_, text, metrics, _⟩ : _ ∧ middle.text = reg.text ∧
        middle.metrics = reg.metrics ∧ _ := refreshes.frame
      have boxSize := next.size_eq (Store.mem_of_get? boxFound)
      have boxId : box.id = node.id := Store.key_of_get? boxFound
      have header : box.headerText = node.headerText := by
        rw [grown]
        rfl
      rw [boxSize, header, boxId, ← text, ← metrics]
      rfl
    rw [if_neg none, boxFound, grown, size]

include reachable coherent refreshes touched next in
theorem classes_middle :
    ∃ added, middle.classes.items = (reg.classes.items.map fun node =>
        if rowsFor claims node.id = [] then node
        else node.grown claims (reg.metrics.boxSize reg.text node.headerText
          ((middle.visibleMethods node.id).map Method.labelText))) ++ added ∧
      added.map ClassNode.bare = (reg.newNodes (· == .classType) nodes).map fun node =>
        (ClassNode.ofNode node reg.defaultToggles).withRows claims := by
  have sameKeys : middle.classes.keys = (reg.joined nodes claims).classes.keys := by
    rw [← keys_bare_classes, refreshes.bare, keys_bare_classes]
  have related : List.Forall₂
      (fun item box => middle.classes.get? item.id = some box ∧ box.bare = item.bare)
      (reg.joined nodes claims).classes.items middle.classes.items := by
    apply Store.forall₂_of_get? coherent.classKeys sameKeys
    intro id item found
    have itemId : item.id = id := Store.key_of_get? found
    obtain ⟨box, boxFound, draws, _⟩ := refreshes.classes found
    refine ⟨box, boxFound, itemId ▸ boxFound, ?_⟩
    rw [draws.same]
    rfl
  rw [joined, List.forall₂_map_left_iff] at related
  obtain ⟨added, split, new⟩ := exists_append_of_forall₂ related
    fun node mem box held => Option.some.inj
      ((get?_classes_middle reachable coherent refreshes touched next mem).symm.trans held.1)
  refine ⟨added, split, ?_⟩
  rw [eq_comm, ← List.forall₂_eq_eq_eq, List.forall₂_map_right_iff, List.forall₂_map_left_iff]
  rw [List.forall₂_map_left_iff] at new
  exact new.imp fun node box held => held.2.symm

include reachable coherent refreshes in
/-- A row that was on the map stays as it was. -/
theorem get?_methods_middle {row : Method} (mem : row ∈ reg.methods.items) :
    middle.methods.get? row.id = some row := by
  obtain ⟨owner, ownerMem, ownerId, _⟩ := reachable.coherent.owner row mem
  have rowFound : (reg.joined nodes claims).methods.get? row.id = some row :=
    Store.get?_of_mem coherent.methodKeys (List.mem_append_left _ mem)
  have ownerFound := get?_classes_joined coherent ownerMem
  rw [ownerId] at ownerFound
  obtain ⟨renewed, found, same, renews⟩ := refreshes.methods rowFound ownerFound
  by_cases listed : row.classId ∈ ids
  · have renewsOwner : row.Renewed owner _ renewed := (renews listed).of_same rfl rfl rfl
    rw [found, renewsOwner.eq_of_current (reachable.row_current ownerMem mem ownerId.symm)]
  · rw [found, same listed]

include reachable coherent refreshes in
theorem methods_middle :
    ∃ added, middle.methods.items = reg.methods.items ++ added ∧
      added.map Method.bare =
        claims.filterMap (claimedMethod ⟨reg.newNodes (· == .method) nodes⟩) := by
  have sameKeys : middle.methods.keys = (reg.joined nodes claims).methods.keys := by
    rw [← keys_bare_methods, refreshes.bare, keys_bare_methods]
  have related : List.Forall₂
      (fun row renewed => middle.methods.get? row.id = some renewed ∧ renewed.bare = row.bare)
      (reg.joined nodes claims).methods.items middle.methods.items := by
    apply Store.forall₂_of_get? coherent.methodKeys sameKeys
    intro id row found
    have rowId : row.id = id := Store.key_of_get? found
    obtain ⟨owner, ownerMem, ownerId, _⟩ := coherent.owner row (Store.mem_of_get? found)
    obtain ⟨renewed, renewedFound, same, renews⟩ := refreshes.methods found
      ((Store.get?_eq_some_iff coherent.classKeys).mpr ⟨ownerMem, ownerId⟩)
    refine ⟨renewed, renewedFound, rowId ▸ renewedFound, ?_⟩
    by_cases listed : row.classId ∈ ids
    · cases renews listed <;> rfl
    · rw [same listed]
  obtain ⟨added, split, new⟩ := exists_append_of_forall₂ related
    fun row mem renewed held => Option.some.inj
      ((get?_methods_middle reachable coherent refreshes mem).symm.trans held.1)
  rw [List.map_id'] at split
  have unshown : ∀ row ∈ claims.filterMap
      (claimedMethod ⟨reg.newNodes (· == .method) nodes⟩), row.bare = row := by
    intro row claimed
    obtain ⟨claim, _, brings⟩ := List.mem_filterMap.mp claimed
    obtain ⟨node, _, rfl⟩ := Option.map_eq_some_iff.mp brings
    rfl
  refine ⟨added, split, ?_⟩
  rw [eq_comm, ← List.forall₂_eq_eq_eq, List.forall₂_map_right_iff]
  exact ((List.forall₂_and_left _ _).mpr ⟨unshown, new⟩).imp fun row renewed held =>
    held.1.symm.trans held.2.2.symm

include reachable coherent refreshes touched in
/-- Numbers stand for what they stood for, but for the outlines of classes that get
rows. -/
theorem get?_pool_middle {lent : List Slot} (balanced : (reg.joined nodes claims).Balanced lent)
    (balancedAfter : middle.Balanced lent) {number : ResourceId}
    (given : number ≤ reg.pool.lastId)
    (noOutline : ∀ node ∈ reg.classes.items, rowsFor claims node.id ≠ [] → number ∉ node.outline) :
    middle.pool.get? number = reg.pool.get? number := by
  apply refreshes.get?_pool coherent balanced balancedAfter given
  · intro item itemMem listed
    obtain ⟨node, nodeMem, rfl⟩ := List.mem_map.mp itemMem
    rcases List.mem_append.mp nodeMem with old | new
    · exact noOutline node old ((mem_touched_iff touched old).mp listed)
    · obtain ⟨added, _, rfl⟩ := List.mem_map.mp new
      exact nofun
  · intro id row renewed rowFound renewedFound labelled
    rcases List.mem_append.mp (Store.mem_of_get? rowFound) with old | new
    · have rowId : row.id = id := Store.key_of_get? rowFound
      have still := get?_methods_middle reachable coherent refreshes old
      rw [rowId, renewedFound] at still
      rw [Option.some.inj still]
    · obtain ⟨claim, _, brings⟩ := List.mem_filterMap.mp new
      obtain ⟨node, _, rfl⟩ := Option.map_eq_some_iff.mp brings
      cases labelled

end Joined

section

variable {drawn : Option (SequenceView R)} {nodes : List Node}
  (reachable : reg.Reachable drawn) (technical : reg.perspective = .technical)
  (distinct : (nodes.map Node.id).Nodup) (links : List Relationship)
include reachable technical distinct

/-- What the passes over nodes and claims make of a map. -/
theorem Reachable.refreshes_withNodes :
    let state := reg.withNodes nodes links
    let claims := claimsOf state.registry.classes.keys
      ((reg.newNodes (· == .method) nodes).map Node.id) links
    (reg.joined nodes claims).Coherent ∧
    (reg.joined nodes claims).Balanced (lentTo drawn) ∧
    state.registry.Balanced (lentTo drawn) ∧
    (∃ ids, (∀ id, id ∈ ids ↔ id ∈ (reg.newNodes (· == .classType) nodes).map Node.id ∨
      id ∈ claims.map Relationship.source) ∧
      (reg.joined nodes claims).Refreshes ids state.registry) ∧
    state.report = {
      classesAdded := (reg.newNodes (· == .classType) nodes).length
      methodsAdded := claims.length } := by
  intro state claims
  let noded := nodes.foldl Ingest.technicalNode { registry := reg }
  let claimed := links.foldl Ingest.claimMethod noded
  have start : Ingest.Ready { registry := reg } := ⟨reachable.coherent, technical, by simp⟩
  have ready : noded.Ready := (start.claims_induction nodes [] (motive := fun _ => True) trivial
    (fun _ _ _ _ _ => trivial) fun _ _ _ _ => trivial).1
  obtain ⟨claimedReady, balanced⟩ : claimed.Ready ∧ claimed.registry.Balanced (lentTo drawn) :=
    start.claims_induction nodes links
      (motive := fun state => state.registry.Balanced (lentTo drawn)) reachable.balanced
      (fun _ _ held node _ => held.technicalNode node)
      fun _ ready held link => held.claimMethod ready link
  have nodesTaken : Ingest.NodesTaken { registry := reg } nodes noded :=
    Ingest.nodesTaken_of_technicalNodes distinct (by simp [Store.keys])
  have claimsTaken : noded.ClaimsTaken _ claimed := Ingest.claimsTaken_of_claims ready
  have stateEq : state = claimed.refreshTouched := by
    simp only [state, withNodes, technical]
    rfl
  have pending : noded.pending = ⟨reg.newNodes (· == .method) nodes⟩ :=
    congrArg Store.mk nodesTaken.pending
  have keys : state.registry.classes.keys = noded.registry.classes.keys := by
    rw [stateEq, ← (Ingest.keys_claims links noded).1, ← keys_bare_classes,
      ← keys_bare_classes claimed.registry]
    exact congrArg (fun map : Registry R => map.classes.keys)
      (bare_refreshClasses _ claimedReady.coherent.methodKeys)
  have claimsEq : claimsOf noded.registry.classes.keys noded.pending.keys links =
      claims := by
    rw [← keys, pending]
    rfl
  rw [claimsEq] at claimsTaken
  have joinedEq : reg.joined nodes claims = claimed.registry := by
    rw [claimsTaken.registry, nodesTaken.registry, pending]
    rfl
  rw [joinedEq, stateEq]
  refine ⟨claimedReady.coherent, balanced, balanced.refreshClasses claimedReady.coherent _,
    ⟨_, ?_, balanced.refreshes claimedReady.coherent (nodup_eraseDups _)⟩, ?_⟩
  · intro id
    rw [List.mem_eraseDups, List.mem_mergeSort, claimsTaken.touched, nodesTaken.touched]
    simp
  · have report : claimed.refreshTouched.report = claimed.report := rfl
    rw [report, claimsTaken.report, nodesTaken.report]
    simp

theorem Reachable.gainsMembers {edges : Store Edge}
    (next : { (reg.withNodes nodes links).registry with edges }.Reachable drawn) :
    reg.GainsMembers nodes
      (claimsOf (reg.withNodes nodes links).registry.classes.keys
        ((reg.newNodes (· == .method) nodes).map Node.id) links)
      { (reg.withNodes nodes links).registry with edges } := by
  obtain ⟨coherent, balanced, balancedAfter, ⟨ids, touched, refreshes⟩, _⟩ :=
    reachable.refreshes_withNodes technical distinct links
  have classes := classes_middle reachable coherent refreshes touched next
  have methods := methods_middle reachable coherent refreshes
  constructor
  · exact classes
  · exact methods
  · exact refreshes.standalone
  · intro node nodeMem
    obtain ⟨_, _, metrics, _⟩ := refreshes.frame
    have outlined := next.exists_outline nodeMem
    rw [metrics] at outlined
    exact ⟨fun row rowMem owned => next.row_current nodeMem rowMem owned, outlined⟩
  · intro number given noOutline
    exact get?_pool_middle reachable coherent refreshes touched balanced balancedAfter given
      noOutline

end

/-! ## Boxes -/

section

variable {nodes : List Node} (architecture : reg.perspective = .architecture)
  (distinct : (nodes.map Node.id).Nodup) (links : List Relationship)
include architecture distinct

theorem boxesTaken_withNodes :
    Ingest.BoxesTaken { registry := reg } nodes (reg.withNodes nodes links) := by
  rw [withNodes, architecture]
  exact Ingest.boxesTaken_of_architectureNodes distinct

theorem gainsBoxes_withNodes (edges : Store Edge) :
    reg.GainsBoxes nodes
      { (reg.withNodes nodes links).registry with edges } := by
  obtain ⟨⟨boxes, after, boxed⟩, _, kept, _⟩ :=
    boxesTaken_withNodes architecture distinct links
  constructor
  · rw [after]
  · rw [after]
  · refine ⟨boxes, ?_, boxed⟩
    rw [after]
  · exact kept

end

/-! ## The whole batch -/

/-- What the nodes of a batch bring is counted, and edges are left alone. -/
theorem Reachable.counts_withNodes {drawn : Option (SequenceView R)}
    (reachable : reg.Reachable drawn) {nodes : List Node}
    (distinct : (nodes.map Node.id).Nodup) (links : List Relationship) :
    let state := reg.withNodes nodes links
    state.registry.edges = reg.edges ∧ state.report.edgesAdded = 0 ∧
    state.registry.classes.size = reg.classes.size + state.report.classesAdded ∧
    state.registry.methods.size = reg.methods.size + state.report.methodsAdded ∧
    state.registry.standalone.size =
      reg.standalone.size + state.report.standaloneAdded := by
  dsimp only
  cases perspective : reg.perspective with
  | technical =>
    obtain ⟨_, _, _, ⟨ids, _, refreshes⟩, report⟩ :=
      reachable.refreshes_withNodes perspective distinct links
    have classes := congrArg (fun map : Registry R => map.classes.items.length) refreshes.bare
    have methods := congrArg (fun map : Registry R => map.methods.items.length) refreshes.bare
    simp only [bare, List.length_map] at classes methods
    rw [report]
    refine ⟨refreshes.edges, rfl, ?_, ?_, ?_⟩
    · rw [Store.size, classes]
      simp [joined, Store.size]
    · rw [Store.size, methods, joined, List.length_append, length_claimedMethods]
      rfl
    · rw [refreshes.standalone]
      rfl
  | architecture =>
    obtain ⟨⟨boxes, after, boxed⟩, _, _, report⟩ :=
      boxesTaken_withNodes perspective distinct links
    have sameLength := boxed.length_eq
    rw [report]
    refine ⟨?_, rfl, ?_, ?_, ?_⟩
    · rw [after]
    · rw [after]
      rfl
    · rw [after]
      rfl
    · rw [after, sameLength]
      simp [Store.size]

/-- On every reachable map, a batch whose nodes have different ids adds what it
tells of and nothing else, the report counts it, and the pool holds what is on the
map or lent to a call diagram. -/
theorem addData_exact {registry : Registry R} {drawn : Option (SequenceView R)}
    (reachable : registry.Reachable drawn) {nodes : List Node}
    (distinct : (nodes.map Node.id).Nodup) (relationships : List Relationship) :
    registry.Gains nodes relationships (registry.addData nodes relationships).1
      (registry.addData nodes relationships).2 ∧
    (registry.addData nodes relationships).2.Balanced (lentTo drawn) := by
  have next : (registry.addData nodes relationships).2.Reachable drawn :=
    reachable.operate (.addData nodes relationships) (Or.inr rfl)
  have frame := reachable.coherent.frame_addData nodes relationships
  refine ⟨?_, next.balanced⟩
  have taken : (registry.withNodes nodes relationships).EdgesTaken _
    (registry.withData nodes relationships) := Ingest.edgesTaken_of_edges
  obtain ⟨after, dropped, report⟩ := taken
  obtain ⟨edges, noEdges, classes, methods, standalone⟩ :=
    reachable.counts_withNodes distinct relationships
  rw [addData_eq, after, edges] at next frame
  rw [addData_eq, after, report, edges]
  constructor
  · exact frame
  · exact fun technical => reachable.gainsMembers technical distinct relationships next
  · exact fun architecture => gainsBoxes_withNodes architecture distinct relationships _
  · rfl
  · exact classes
  · exact methods
  · exact standalone
  · simp [Store.size, noEdges]

/-- A method that three classes claim, one of which is not on the map, comes to a
class that has a method already; and of two edges with one id the first has an end
that is missing. -/
theorem addData_exact_sample :
    let registry := Engine.sampleStart.registry.apply (.addData
      [⟨"shop", ["Class"], []⟩, ⟨"order", ["Method"], []⟩]
      [⟨"1", "HAS_METHOD", "shop", "order", []⟩])
    let nodes : List Node := [⟨"bank", ["Class"], []⟩, ⟨"pay", ["Method"], []⟩]
    let relationships : List Relationship := [⟨"1", "HAS_METHOD", "nobody", "pay", []⟩,
      ⟨"2", "HAS_METHOD", "shop", "pay", []⟩, ⟨"3", "HAS_METHOD", "bank", "pay", []⟩,
      ⟨"4", "CALLS", "order", "nobody", []⟩, ⟨"4", "CALLS", "order", "pay", []⟩]
    (nodes.map Node.id).Nodup ∧
    registry.Gains nodes relationships (registry.addData nodes relationships).1
      (registry.addData nodes relationships).2 ∧
    (registry.addData nodes relationships).2.Balanced [] := by
  intro registry nodes relationships
  have reachable : registry.Reachable none :=
    (Reachable.create _ _ _).operate (.addData _ _) (Or.inl rfl)
  have distinct : (nodes.map Node.id).Nodup := by decide
  exact ⟨distinct, addData_exact reachable distinct relationships⟩

end Registry

end CodeAtlas
