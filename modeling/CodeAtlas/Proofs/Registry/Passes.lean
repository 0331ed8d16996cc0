import CodeAtlas.Proofs.PoolContents
import CodeAtlas.Proofs.Registry.Batch

/-!
# The passes over a batch

A batch is taken in by passes: over its nodes, over its relationships for the
methods that classes claim, and over its relationships again for edges.  What
each pass adds, and in which order, is told by the map before it and by the batch
alone; of relationships that compete, the first one counts.
-/

namespace CodeAtlas

variable {R : Type} [Scalar R] {reg : Registry R} {state : Ingest R}
  {link : Relationship} {node : Node}

omit [Scalar R] in
theorem Pool.get?_allocate_self (pool : Pool R) (resource : Resource R) :
    (pool.allocate resource).2.get? (pool.allocate resource).1 = some resource := by
  simp [allocate, get?]

/-! ## First come, first served -/

/-- Of things with one key, the first. -/
def firstBy {α : Type} (key : α → String) (items : List α) : List α :=
  items.eraseDupsBy fun other first => key other == key first

@[simp]
theorem firstBy_nil {α : Type} (key : α → String) : firstBy key [] = [] :=
  rfl

theorem firstBy_cons {α : Type} (key : α → String) (first : α) (rest : List α) :
    firstBy key (first :: rest) =
      first :: firstBy key (rest.filter fun other => key other != key first) := by
  rw [firstBy, List.eraseDupsBy_cons, firstBy]
  congr 3
  funext other
  by_cases same : key other = key first <;> simp [same]

/-- Taking the first of each key takes things of the list, no two with one key. -/
theorem firstBy_spec {α : Type} (key : α → String) (items : List α) :
    ((firstBy key items).map key).Nodup ∧ ∀ item ∈ firstBy key items, item ∈ items := by
  cases items with
  | nil => simp
  | cons first rest =>
    obtain ⟨distinct, within⟩ :=
      firstBy_spec key (rest.filter fun other => key other != key first)
    rw [firstBy_cons]
    constructor
    · rw [List.map_cons, List.nodup_cons]
      refine ⟨?_, distinct⟩
      intro again
      obtain ⟨other, mem, same⟩ := List.mem_map.mp again
      have different := (List.mem_filter.mp (within other mem)).2
      simp [same] at different
    · rintro item (_ | ⟨_, later⟩)
      · exact List.mem_cons_self
      · exact List.mem_cons_of_mem _ (List.mem_filter.mp (within item later)).1
termination_by items.length
decreasing_by exact Nat.lt_succ_of_le (List.length_filter_le _ _)

theorem nodup_eraseDups (ids : List NodeId) : ids.eraseDups.Nodup := by
  have distinct := (firstBy_spec id ids).1
  rwa [List.map_id] at distinct

/-! ## What is new in a batch -/

namespace Registry

/-- The nodes of a batch that pass a test and are not on the map. -/
def newNodes (reg : Registry R) (test : NodeKind → Bool) (nodes : List Node) : List Node :=
  nodes.filter fun node => test node.kind && !reg.containsNode node.id

end Registry

/-- The claims that count: of those by which an owner claims one of the methods
that wait, the first for each method. -/
def claimsOf (owners waiting : List NodeId) (links : List Relationship) :
    List Relationship :=
  firstBy Relationship.target (links.filter fun link =>
    link.kind == .hasMethod && owners.contains link.source && waiting.contains link.target)

/-- The relationships that become edges: of those with one new id that are drawn
between nodes of the map, the first. -/
def linksOf (taken : List EdgeId) (onMap : NodeId → Bool) (links : List Relationship) :
    List Relationship :=
  firstBy Relationship.id (links.filter fun link =>
    link.kind != .hasMethod && !taken.contains link.id && onMap link.source && onMap link.target)

/-- The methods that claims give to a class, in the order of the claims. -/
def rowsFor (claims : List Relationship) (classId : NodeId) : List NodeId :=
  (claims.filter fun claim => claim.source == classId).map Relationship.target

/-- A class with the rows that claims give to it. -/
def ClassNode.withRows (node : ClassNode R) (claims : List Relationship) : ClassNode R :=
  { node with methods := node.methods ++ rowsFor claims node.id }

/-- The method that a claim brings on the map, if it waits. -/
def claimedMethod (waiting : Store Node) (claim : Relationship) : Option Method :=
  (waiting.get? claim.target).map fun node => .ofNode node claim.source

/-- The edge that a relationship describes, before it is routed. -/
def Relationship.edge (link : Relationship) : Edge :=
  ⟨link.id, link.kind, link.source, link.target, none⟩

section
omit [Scalar R]

theorem Registry.newNodes_cons_of_pos {test : NodeKind → Bool} {rest : List Node}
    (passes : test node.kind = true) (new : reg.containsNode node.id = false) :
    reg.newNodes test (node :: rest) = node :: reg.newNodes test rest := by
  simp [newNodes, passes, new]

theorem Registry.newNodes_cons_of_neg {test : NodeKind → Bool} {rest : List Node}
    (fails : test node.kind = true → reg.containsNode node.id = true) :
    reg.newNodes test (node :: rest) = reg.newNodes test rest := by
  cases passes : test node.kind with
  | false => simp [newNodes, passes]
  | true => simp [newNodes, fails passes]

/-- What is new stays new while other nodes come. -/
theorem Registry.newNodes_congr {reg other : Registry R} {test : NodeKind → Bool}
    {nodes : List Node}
    (same : ∀ node ∈ nodes, other.containsNode node.id = reg.containsNode node.id) :
    other.newNodes test nodes = reg.newNodes test nodes := by
  apply List.filter_congr
  intro node mem
  rw [same node mem]

end

/-- Of the claims on a method that waits the first counts, and the method waits no
longer when the others come. -/
theorem claimsOf_cons {owners waiting left : List NodeId} {rest : List Relationship}
    (claims : link.kind = .hasMethod) (owned : link.source ∈ owners)
    (waits : link.target ∈ waiting)
    (left_iff : ∀ id, id ∈ left ↔ id ∈ waiting ∧ id ≠ link.target) :
    claimsOf owners waiting (link :: rest) = link :: claimsOf owners left rest := by
  rw [claimsOf, List.filter_cons_of_pos (by simp [claims, owned, waits]), firstBy_cons,
    List.filter_filter, claimsOf]
  congr 2
  apply List.filter_congr
  intro other _
  rw [Bool.eq_iff_iff]
  simp [left_iff, and_assoc, and_comm, and_left_comm]

/-- A claim that counts is one of the batch, by an owner on a method that waits. -/
theorem mem_claimsOf {owners waiting : List NodeId} {links : List Relationship}
    {claim : Relationship} (mem : claim ∈ claimsOf owners waiting links) :
    claim ∈ links ∧ claim.kind = .hasMethod ∧ claim.source ∈ owners ∧
      claim.target ∈ waiting := by
  have kept := List.mem_filter.mp ((firstBy_spec _ _).2 claim mem)
  simpa [and_assoc] using kept

omit [Scalar R] in
/-- The row of the first claim comes before those of the others. -/
theorem map_withRows_modify (classes : Store (ClassNode R)) (claim : Relationship)
    (claims : List Relationship) :
    (classes.modify claim.source fun owner =>
        { owner with methods := owner.methods ++ [claim.target] }).items.map (·.withRows claims) =
      classes.items.map (·.withRows (claim :: claims)) := by
  rw [Store.modify, List.map_map]
  apply List.map_congr_left
  intro node _
  by_cases claims : claim.source = node.id
  · simp [Keyed.key, ClassNode.withRows, rowsFor, claims]
  · simp [Keyed.key, ClassNode.withRows, rowsFor, claims, Ne.symm claims]

theorem claimedMethod_of_waiting {waiting : Store Node} {claim : Relationship}
    (found : waiting.get? claim.target = some node) :
    claimedMethod waiting claim = some (.ofNode node claim.source) := by
  rw [claimedMethod, found, Option.map_some]

/-- Of the relationships with one new id that join nodes of the map the first
becomes the edge, and the id is no longer new when the others come. -/
theorem linksOf_cons {taken more : List EdgeId} {onMap : NodeId → Bool} {rest : List Relationship}
    (drawn : link.kind ≠ .hasMethod) (new : link.id ∉ taken)
    (source : onMap link.source = true) (target : onMap link.target = true)
    (more_iff : ∀ id, id ∈ more ↔ id ∈ taken ∨ id = link.id) :
    linksOf taken onMap (link :: rest) = link :: linksOf more onMap rest := by
  rw [linksOf, List.filter_cons_of_pos (by simp [drawn, new, source, target]), firstBy_cons,
    List.filter_filter, linksOf]
  congr 2
  apply List.filter_congr
  intro other _
  rw [Bool.eq_iff_iff]
  simp only [Bool.and_eq_true, Bool.not_eq_true', List.contains_eq_mem, decide_eq_false_iff_not,
    more_iff, bne_iff_ne]
  tauto

namespace Ingest

/-! ## Nodes of the technical perspective -/

/-- What the pass over the nodes leaves: new classes are on the map and new
methods wait, in the order of the batch. -/
structure NodesTaken (state : Ingest R) (nodes : List Node) (after : Ingest R) : Prop where
  registry : after.registry = { state.registry with
    classes := ⟨state.registry.classes.items ++
      (state.registry.newNodes (· == .classType) nodes).map
        (.ofNode · state.registry.defaultToggles)⟩ }
  pending : after.pending.items =
    state.pending.items ++ state.registry.newNodes (· == .method) nodes
  touched : after.touched =
    state.touched ++ (state.registry.newNodes (· == .classType) nodes).map Node.id
  report : after.report = { state.report with
    classesAdded := state.report.classesAdded +
      (state.registry.newNodes (· == .classType) nodes).length }

/-- What is left when one node more comes in front. -/
theorem NodesTaken.cons {state after : Ingest R} {node : Node} {rest : List Node}
    (fresh : node.id ∉ state.pending.keys)
    (stillNew : ∀ other ∈ rest, (state.technicalNode node).registry.containsNode other.id =
      state.registry.containsNode other.id)
    (later : (state.technicalNode node).NodesTaken rest after) :
    state.NodesTaken (node :: rest) after := by
  obtain ⟨reg, pending, touched, report⟩ := later
  rw [Registry.newNodes_congr stillNew] at reg pending touched report
  cases known : state.registry.containsNode node.id with
  | true =>
    rw [technicalNode_of_known known] at reg pending touched report
    constructor <;> simpa only [Registry.newNodes_cons_of_neg fun _ => known]
  | false =>
    by_cases isClass : node.kind = .classType
    · have inserted : (state.registry.classes.insert
          (.ofNode node state.registry.defaultToggles)).items =
            state.registry.classes.items ++ [.ofNode node state.registry.defaultToggles] :=
        Store.items_insert_of_new (not_mem_keys_of_new known).1
      have classes : state.registry.newNodes (· == .classType) (node :: rest) = _ :=
        Registry.newNodes_cons_of_pos (by simp [isClass]) known
      have methods : state.registry.newNodes (· == .method) (node :: rest) = _ :=
        Registry.newNodes_cons_of_neg (by simp [isClass])
      rw [technicalNode_of_class known isClass] at reg pending touched report
      constructor
      · rw [reg, classes, inserted]
        simp
      · rw [pending, methods]
      · rw [touched, classes]
        simp
      · rw [report, classes]
        simp [Nat.add_assoc, Nat.add_comm 1]
    · have classes : state.registry.newNodes (· == .classType) (node :: rest) = _ :=
        Registry.newNodes_cons_of_neg (by simp [isClass])
      by_cases isMethod : node.kind = .method
      · have inserted : (state.pending.insert node).items = state.pending.items ++ [node] :=
          Store.items_insert_of_new fresh
        have methods : state.registry.newNodes (· == .method) (node :: rest) = _ :=
          Registry.newNodes_cons_of_pos (by simp [isMethod]) known
        rw [technicalNode_of_method known isMethod] at reg pending touched report
        constructor
        · rw [reg, classes]
        · rw [pending, methods, inserted]
          simp
        · rw [touched, classes]
        · rw [report, classes]
      · have methods : state.registry.newNodes (· == .method) (node :: rest) = _ :=
          Registry.newNodes_cons_of_neg (by simp [isMethod])
        rw [technicalNode_of_other isClass isMethod] at reg pending touched report
        constructor <;> simpa only [classes, methods]

theorem nodesTaken_of_technicalNodes {nodes : List Node} {state : Ingest R}
    (distinct : (nodes.map Node.id).Nodup) (fresh : ∀ node ∈ nodes, node.id ∉ state.pending.keys) :
    state.NodesTaken nodes (nodes.foldl technicalNode state) := by
  induction nodes generalizing state with
  | nil => constructor <;> simp [Registry.newNodes]
  | cons node rest ih =>
    obtain ⟨absent, restDistinct⟩ := List.nodup_cons.mp distinct
    have others : ∀ other ∈ rest, node.id ≠ other.id :=
      fun other mem same => absent (same ▸ List.mem_map_of_mem mem)
    apply NodesTaken.cons (fresh node List.mem_cons_self)
    · intro other mem
      rw [Bool.eq_iff_iff, containsNode_technicalNode,
        or_iff_left fun same => others other mem same.1]
    · apply ih restDistinct
      intro other mem
      rw [(keys_technicalNode state node other.id).2.1, not_or]
      exact ⟨fresh other (List.mem_cons_of_mem _ mem), fun same => others other mem same.2.1⟩

/-! ## Claims -/

/-- What the pass over the claims leaves: each claim that counts brings its method
on the map, behind all others and as the last row of its class. -/
structure ClaimsTaken (state : Ingest R) (claims : List Relationship) (after : Ingest R) :
    Prop where
  registry : after.registry = { state.registry with
    classes := ⟨state.registry.classes.items.map (·.withRows claims)⟩
    methods := ⟨state.registry.methods.items ++ claims.filterMap (claimedMethod state.pending)⟩ }
  touched : after.touched = state.touched ++ claims.map Relationship.source
  report : after.report = { state.report with
    methodsAdded := state.report.methodsAdded + claims.length }

omit [Scalar R] in
/-- What is left when one claim more comes in front, and counts. -/
theorem ClaimsTaken.cons {state after : Ingest R} {link : Relationship}
    {rest : List Relationship} (ready : state.Ready) (claims : link.kind = .hasMethod)
    (owned : link.source ∈ state.registry.classes.keys)
    (waits : link.target ∈ state.pending.keys)
    (later : (state.claimMethod link).ClaimsTaken
      (claimsOf (state.claimMethod link).registry.classes.keys
        (state.claimMethod link).pending.keys rest) after) :
    state.ClaimsTaken
      (claimsOf state.registry.classes.keys state.pending.keys (link :: rest)) after := by
  obtain ⟨node, found⟩ := Store.exists_get? waits
  have targetEq : node.id = link.target := Store.key_of_get? found
  have inserted : (state.registry.methods.insert (.ofNode node link.source)).items =
      state.registry.methods.items ++ [.ofNode node link.source] :=
    Store.items_insert_of_new (ready.pending node (Store.mem_of_get? found))
  rw [(keys_claimMethod state link "").2.2.1] at later
  rw [claimMethod_of_claim claims owned found, claiming] at later
  have others : ∀ claim ∈ claimsOf state.registry.classes.keys
      (state.pending.erase link.target).keys rest,
      claimedMethod (state.pending.erase link.target) claim =
        claimedMethod state.pending claim := by
    intro claim mem
    obtain ⟨_, _, _, waiting⟩ := mem_claimsOf mem
    rw [claimedMethod, Store.get?_erase_of_ne (Store.mem_keys_erase.mp waiting).2, claimedMethod]
  obtain ⟨reg, touched, report⟩ := later
  rw [claimsOf_cons claims owned waits fun id => Store.mem_keys_erase]
  constructor
  · rw [reg, inserted, targetEq, map_withRows_modify,
      List.filterMap_cons_some (claimedMethod_of_waiting found), List.append_assoc,
      List.singleton_append, List.filterMap_congr others]
  · rw [touched]
    simp
  · rw [report]
    simp [Nat.add_assoc, Nat.add_comm 1]

omit [Scalar R] in
theorem claimsTaken_of_claims {links : List Relationship} {state : Ingest R} (ready : state.Ready) :
    state.ClaimsTaken (claimsOf state.registry.classes.keys state.pending.keys links)
      (links.foldl claimMethod state) := by
  induction links generalizing state with
  | nil => constructor <;> simp [claimsOf, ClassNode.withRows, rowsFor]
  | cons link rest ih =>
    have later := ih (ready.claimMethod link)
    rw [List.foldl_cons]
    by_cases counts : link.kind = .hasMethod ∧
        link.source ∈ state.registry.classes.keys ∧
        link.target ∈ state.pending.keys
    · obtain ⟨claims, owned, waits⟩ := counts
      exact .cons ready claims owned waits later
    · have passed : claimsOf state.registry.classes.keys state.pending.keys
          (link :: rest) =
            claimsOf state.registry.classes.keys state.pending.keys rest := by
        rw [claimsOf, claimsOf, List.filter_cons_of_neg (by simpa [and_assoc] using counts)]
      rw [claimMethod_of_passed counts] at later ⊢
      rw [passed]
      exact later

/-! ## Edges -/

/-- What the pass over the edges leaves. -/
structure EdgesTaken (state : Ingest R) (links : List Relationship) (after : Ingest R) : Prop where
  registry : after.registry = { state.registry with
    edges := ⟨state.registry.edges.items ++ links.map Relationship.edge⟩ }
  report : ∃ dropped, after.report = { state.report with
    edgesAdded := state.report.edgesAdded + links.length
    edgesDropped := dropped }

theorem isRendered_eq (kind : EdgeKind) : kind.isRendered = (kind != .hasMethod) := by
  cases kind <;> rfl

section
omit [Scalar R]

theorem edge_of_passed {link : Relationship} (passed : ¬ (link.kind ≠ .hasMethod ∧
      link.id ∉ state.registry.edges.keys ∧
      state.registry.containsNode link.source = true ∧
      state.registry.containsNode link.target = true)) :
    ∃ dropped, state.edge link =
      { state with report := { state.report with edgesDropped := dropped } } := by
  rcases edge_cases state link with same | ⟨rendered, new, source, target, _⟩
  · exact same
  · rw [isRendered_eq, bne_iff_ne] at rendered
    exact absurd ⟨rendered, new, source, target⟩ passed

section

variable (drawn : link.kind ≠ .hasMethod) (new : link.id ∉ state.registry.edges.keys)
  (source : state.registry.containsNode link.source = true)
  (target : state.registry.containsNode link.target = true)
include drawn new source target

theorem edge_of_new :
    state.edge link = { state with
      registry := { state.registry with
        edges := state.registry.edges.insert link.edge }
      report := { state.report with edgesAdded := state.report.edgesAdded + 1 } } := by
  rw [Ingest.edge, if_neg (by simp [isRendered_eq, drawn, Store.contains_eq_false_iff.mpr new]),
    if_neg (by simp [source, target])]
  rfl

/-- What is left when one relationship more comes in front, and becomes an edge. -/
theorem EdgesTaken.cons {after : Ingest R} {rest : List Relationship}
    (later : (state.edge link).EdgesTaken
      (linksOf (state.edge link).registry.edges.keys state.registry.containsNode rest)
      after) :
    state.EdgesTaken (linksOf state.registry.edges.keys state.registry.containsNode
      (link :: rest)) after := by
  obtain ⟨reg, dropped, report⟩ := later
  have inserted : (state.registry.edges.insert link.edge).items =
      state.registry.edges.items ++ [link.edge] := Store.items_insert_of_new new
  have taken : ∀ id, id ∈ (state.edge link).registry.edges.keys ↔
      id ∈ state.registry.edges.keys ∨ id = link.id := by
    intro id
    rw [(keys_edge state link id).1, eq_comm]
    simp [isRendered_eq, drawn, source, target]
  rw [linksOf_cons drawn new source target taken]
  rw [edge_of_new drawn new source target] at reg report ⊢
  constructor
  · rw [reg, inserted]
    simp
  · rw [report]
    exact ⟨dropped, by simp [Nat.add_assoc, Nat.add_comm 1]⟩

end

theorem edgesTaken_of_edges {links : List Relationship} {state : Ingest R} :
    state.EdgesTaken
      (linksOf state.registry.edges.keys state.registry.containsNode links)
      (links.foldl edge state) := by
  induction links generalizing state with
  | nil => exact ⟨by simp [linksOf], _, rfl⟩
  | cons link rest ih =>
    have later : (state.edge link).EdgesTaken _ _ := ih
    have nodesKept : (state.edge link).registry.containsNode =
        state.registry.containsNode := funext (containsNode_edges [link] state)
    rw [nodesKept] at later
    rw [List.foldl_cons]
    by_cases counts : link.kind ≠ .hasMethod ∧
        link.id ∉ state.registry.edges.keys ∧
        state.registry.containsNode link.source = true ∧
        state.registry.containsNode link.target = true
    · obtain ⟨drawn, new, source, target⟩ := counts
      exact .cons drawn new source target later
    · have others : linksOf state.registry.edges.keys state.registry.containsNode
          (link :: rest) =
            linksOf state.registry.edges.keys state.registry.containsNode rest := by
        rw [linksOf, List.filter_cons_of_neg (by simpa [and_assoc] using counts), linksOf]
      obtain ⟨reg, dropped, report⟩ := later
      obtain ⟨skipped, passed⟩ := edge_of_passed counts
      rw [others]
      rw [passed] at reg report ⊢
      exact ⟨reg, dropped, report⟩

end

/-! ## Nodes of the architecture perspective -/

end Ingest

/-- The box that a node of the architecture perspective describes, with its label
and its outline. -/
def Registry.boxOf (reg : Registry R) (node : Node) (label outline : ResourceId) :
    StandaloneNode R :=
  let name := StandaloneNode.nameOf node
  { id := node.id
    name
    kind := node.kind
    labels := node.labels
    size := ⟨Scalar.ceil (Scalar.max
      (reg.metrics.textWidth reg.text (StandaloneNode.labelText node.kind name))
      reg.metrics.minWidth), reg.metrics.standaloneHeight⟩
    position := .zero
    label := some label
    outline := some outline }

/-- The picture on that box. -/
def Registry.boxLabel (reg : Registry R) (node : Node) : LabelBitmap :=
  reg.text.rasterize (StandaloneNode.labelText node.kind (StandaloneNode.nameOf node))
    { reg.metrics.labelStyle with text := node.kind.style.text }

/-- A box as a node describes it, whose numbers have been given out since and stand
in a pool for its picture and its outline. -/
inductive Registry.Boxed (reg : Registry R) (pool : Pool R) (node : Node) :
    StandaloneNode R → Prop where
  | mk (label outline : ResourceId)
      (labelNew : reg.pool.lastId < label ∧ label ≤ pool.lastId)
      (outlineNew : reg.pool.lastId < outline ∧ outline ≤ pool.lastId)
      (picture : pool.get? label = some (.label (reg.boxLabel node)))
      (line : pool.get? outline =
        some (.shape (reg.metrics.outline (reg.boxOf node label outline).size))) :
      Boxed reg pool node (reg.boxOf node label outline)

theorem Registry.Boxed.later {pool after : Pool R} {box : StandaloneNode R}
    (boxed : reg.Boxed pool node box) (numbers : pool.lastId ≤ after.lastId)
    (kept : ∀ number ≤ pool.lastId, after.get? number = pool.get? number) :
    reg.Boxed after node box := by
  obtain ⟨label, outline, labelNew, outlineNew, picture, line⟩ := boxed
  refine .mk label outline ⟨labelNew.1, Nat.le_trans labelNew.2 numbers⟩
    ⟨outlineNew.1, Nat.le_trans outlineNew.2 numbers⟩ ?_ ?_
  · rw [kept label labelNew.2, picture]
  · rw [kept outline outlineNew.2, line]

theorem Registry.Boxed.sooner {reg other : Registry R} {pool : Pool R} {box : StandaloneNode R}
    (boxed : other.Boxed pool node box) (numbers : reg.pool.lastId ≤ other.pool.lastId)
    (text : other.text = reg.text)
    (metrics : other.metrics = reg.metrics) : reg.Boxed pool node box := by
  obtain ⟨label, outline, labelNew, outlineNew, picture, line⟩ := boxed
  have same : other.boxOf node label outline = reg.boxOf node label outline := by
    rw [boxOf, boxOf, text, metrics]
  rw [boxLabel, text, metrics] at picture
  rw [same, metrics] at line
  rw [same]
  exact .mk label outline ⟨Nat.lt_of_le_of_lt numbers labelNew.1, labelNew.2⟩
    ⟨Nat.lt_of_le_of_lt numbers outlineNew.1, outlineNew.2⟩ picture line

namespace Ingest

/-- A new node gets a box, whose label and outline are taken into the pool. -/
theorem architectureNode_boxed (new : state.registry.containsNode node.id = false)
    (standalone : node.kind.isStandalone = true) :
    ∃ (box : StandaloneNode R) (pool : Pool R), state.registry.Boxed pool node box ∧
      state.registry.pool.lastId ≤ pool.lastId ∧
      (∀ number ≤ state.registry.pool.lastId, pool.get? number = state.registry.pool.get? number) ∧
      state.architectureNode node = { state with
        registry := { state.registry with
          pool
          standalone := state.registry.standalone.insert box }
        report :=
          { state.report with standaloneAdded := state.report.standaloneAdded + 1 } } := by
  let start := state.registry.pool
  let labelled := start.allocateLabel (state.registry.boxLabel node)
  let box := state.registry.boxOf node labelled.1 (labelled.2.lastId + 1)
  let outlined := labelled.2.allocateShape (state.registry.metrics.outline box.size)
  have labelNumber : labelled.2.lastId = start.lastId + 1 := rfl
  refine ⟨box, outlined.2, .mk _ _ ?_ ?_ ?_ ?_, ?_, ?_, ?_⟩
  · exact ⟨Nat.lt_succ_self start.lastId, Nat.le_succ _⟩
  · exact ⟨Nat.lt_succ_of_lt (Nat.lt_succ_self start.lastId), Nat.le_refl _⟩
  · have still : outlined.2.get? labelled.1 = labelled.2.get? labelled.1 :=
      Pool.get?_allocate_of_le _ (Nat.le_refl _)
    rw [still]
    exact Pool.get?_allocate_self start _
  · exact Pool.get?_allocate_self labelled.2 _
  · exact Nat.le_succ_of_le (Nat.le_succ start.lastId)
  · intro number given
    have first : labelled.2.get? number = start.get? number := Pool.get?_allocate_of_le _ given
    rw [← first]
    exact Pool.get?_allocate_of_le _ (Nat.le_succ_of_le given)
  · rw [architectureNode, if_neg (by simp [new, standalone])]
    rfl

/-- What the pass over the nodes leaves: new boxes behind the others, and numbers
that stand for what they stood for. -/
structure BoxesTaken (state : Ingest R) (nodes : List Node) (after : Ingest R) : Prop where
  registry : ∃ boxes, after.registry = { state.registry with
      pool := after.registry.pool
      standalone := ⟨state.registry.standalone.items ++ boxes⟩ } ∧
    List.Forall₂ (state.registry.Boxed after.registry.pool)
      (state.registry.newNodes NodeKind.isStandalone nodes) boxes
  numbers : state.registry.pool.lastId ≤ after.registry.pool.lastId
  kept : ∀ number ≤ state.registry.pool.lastId,
    after.registry.pool.get? number = state.registry.pool.get? number
  report : after.report = { state.report with
    standaloneAdded := state.report.standaloneAdded +
      (state.registry.newNodes NodeKind.isStandalone nodes).length }

/-- What is left when one node more comes in front, and gets a box. -/
theorem BoxesTaken.cons {state after : Ingest R} {node : Node} {rest : List Node}
    (new : state.registry.containsNode node.id = false)
    (standalone : node.kind.isStandalone = true)
    (stillNew : ∀ other ∈ rest, (state.architectureNode node).registry.containsNode other.id =
      state.registry.containsNode other.id)
    (later : (state.architectureNode node).BoxesTaken rest after) :
    state.BoxesTaken (node :: rest) after := by
  obtain ⟨⟨boxes, reg, boxed⟩, numbers, kept, report⟩ := later
  rw [Registry.newNodes_congr stillNew] at boxed report
  obtain ⟨box, pool, first, grows, old, added⟩ := architectureNode_boxed new standalone
  have boxNew : Keyed.key box ∉ state.registry.standalone.keys := by
    cases first
    exact (not_mem_keys_of_new new).2.2
  have others : state.registry.newNodes NodeKind.isStandalone (node :: rest) = _ :=
    Registry.newNodes_cons_of_pos standalone new
  rw [added] at reg boxed numbers kept report
  refine ⟨⟨box :: boxes, ?_, ?_⟩, Nat.le_trans grows numbers, ?_, ?_⟩
  · rw [reg, Store.items_insert_of_new boxNew]
    simp
  · rw [others]
    exact .cons (first.later numbers kept) (boxed.imp fun _ _ later =>
      later.sooner grows rfl rfl)
  · intro number given
    rw [kept number (Nat.le_trans given grows), old number given]
  · rw [report, others]
    simp [Nat.add_assoc, Nat.add_comm 1]

theorem boxesTaken_of_architectureNodes {nodes : List Node} {state : Ingest R}
    (distinct : (nodes.map Node.id).Nodup) :
    state.BoxesTaken nodes (nodes.foldl architectureNode state) := by
  induction nodes generalizing state with
  | nil =>
    refine ⟨⟨[], ?_, ?_⟩, Nat.le_refl _, fun _ _ => rfl, ?_⟩ <;> simp [Registry.newNodes]
  | cons node rest ih =>
    obtain ⟨absent, restDistinct⟩ := List.nodup_cons.mp distinct
    have stillNew : ∀ other ∈ rest, (state.architectureNode node).registry.containsNode other.id =
        state.registry.containsNode other.id := by
      intro other mem
      rw [Bool.eq_iff_iff, containsNode_architectureNode]
      exact or_iff_left fun same => absent (same.1 ▸ List.mem_map_of_mem mem)
    have later : (state.architectureNode node).BoxesTaken _ _ := ih restDistinct
    rw [List.foldl_cons]
    by_cases counts : state.registry.containsNode node.id = false ∧
        node.kind.isStandalone = true
    · exact .cons counts.1 counts.2 stillNew later
    · have passed : state.registry.containsNode node.id = true ∨
          node.kind.isStandalone = false := by
        simpa [Classical.or_iff_not_imp_left] using counts
      have others : state.registry.newNodes NodeKind.isStandalone (node :: rest) =
          state.registry.newNodes NodeKind.isStandalone rest :=
        Registry.newNodes_cons_of_neg fun standalone => by simpa [standalone] using passed
      obtain ⟨⟨boxes, reg, boxed⟩, numbers, kept, report⟩ := later
      rw [architectureNode_of_passed passed] at reg boxed numbers kept report ⊢
      rw [← others] at boxed report
      exact ⟨⟨boxes, reg, boxed⟩, numbers, kept, report⟩

end Ingest

end CodeAtlas
