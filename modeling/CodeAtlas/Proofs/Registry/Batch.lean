import CodeAtlas.Proofs.Registry.Ingest

/-!
# What a batch brings

Which ids are on the map after a batch, told by the map before it and by the
batch alone.  Nodes and relationships may come in any order and repeat or
contradict each other: of a class and a method with one id the class is always
taken, and the method only if it stands first and a class claims it.
-/

namespace CodeAtlas

variable {R : Type} [Scalar R] {reg : Registry R} {state : Ingest R} {node : Node}
  {nodes : List Node} {links : List Relationship}

theorem Store.mem_keys_insert {α : Type} [Keyed α] {store : Store α} {item : α} {key : String} :
    key ∈ (store.insert item).keys ↔ key ∈ store.keys ∨ key = Keyed.key item := by
  unfold Store.insert
  split
  · next known =>
      rw [Store.keys_modify fun _ _ => rfl]
      constructor
      · exact Or.inl
      · rintro (old | rfl)
        · exact old
        · exact Store.contains_iff.mp known
  · simp [Store.keys]

/-! ## Batches -/

/-- A batch has a class with the id. -/
def BringsClass (nodes : List Node) (id : NodeId) : Prop :=
  ∃ node ∈ nodes, node.id = id ∧ node.kind = .classType

/-- The first node with the id that is a class or a method. -/
def firstMember? (nodes : List Node) (id : NodeId) : Option Node :=
  nodes.find? fun node =>
    node.id == id && (node.kind == .classType || node.kind == .method)

/-- Among the classes and methods of a batch the id comes first as a method. -/
def MethodFirst (nodes : List Node) (id : NodeId) : Prop :=
  (firstMember? nodes id).map Node.kind = some .method

/-- One of the given classes claims the method with the id. -/
def Claimed (links : List Relationship) (owners : List NodeId) (id : NodeId) : Prop :=
  ∃ link ∈ links, link.kind = .hasMethod ∧
    link.source ∈ owners ∧ link.target = id

theorem not_bringsClass_nil (id : NodeId) : ¬ BringsClass [] id := by
  simp [BringsClass]

theorem bringsClass_cons {rest : List Node} {id : NodeId} :
    BringsClass (node :: rest) id ↔
      (node.id = id ∧ node.kind = .classType) ∨ BringsClass rest id := by
  simp [BringsClass]

theorem not_methodFirst_nil (id : NodeId) : ¬ MethodFirst [] id := by
  simp [MethodFirst, firstMember?]

theorem methodFirst_cons {rest : List Node} {id : NodeId} :
    MethodFirst (node :: rest) id ↔
      (node.id = id ∧ node.kind = .method) ∨
        (¬ (node.id = id ∧ node.kind = .classType) ∧ MethodFirst rest id) := by
  unfold MethodFirst firstMember?
  by_cases same : node.id = id
  · by_cases isClass : node.kind = .classType
    · simp [same, isClass]
    · by_cases isMethod : node.kind = .method <;> simp [same, isClass, isMethod]
  · simp [same]

/-- A method that shares its id with no class of the batch comes first. -/
theorem methodFirst_of_mem (mem : node ∈ nodes) (isMethod : node.kind = .method)
    (noClass : ¬ BringsClass nodes node.id) :
    MethodFirst nodes node.id := by
  induction nodes with
  | nil => cases mem
  | cons first rest ih =>
    rw [bringsClass_cons, not_or] at noClass
    rw [methodFirst_cons]
    rcases List.mem_cons.mp mem with rfl | later
    · exact Or.inl ⟨rfl, isMethod⟩
    · exact Or.inr ⟨noClass.1, ih later noClass.2⟩

theorem claimed_cons {link : Relationship} {rest : List Relationship}
    {owners : List NodeId} {id : NodeId} :
    Claimed (link :: rest) owners id ↔
      (link.kind = .hasMethod ∧ link.source ∈ owners ∧
        link.target = id) ∨ Claimed rest owners id := by
  simp [Claimed]

namespace Ingest

/-! ## Nodes of the technical perspective -/

theorem technicalNode_of_known
    (known : state.registry.containsNode node.id = true) : state.technicalNode node = state := by
  rw [technicalNode, if_pos known]

theorem technicalNode_of_other (noClass : node.kind ≠ .classType)
    (noMethod : node.kind ≠ .method) : state.technicalNode node = state := by
  rcases technicalNode_cases state node with same | ⟨_, isClass, _⟩ | ⟨_, isMethod, _⟩
  · exact same
  · exact absurd isClass noClass
  · exact absurd isMethod noMethod

theorem technicalNode_of_class (new : state.registry.containsNode node.id = false)
    (isClass : node.kind = .classType) :
    state.technicalNode node = { state with
      registry := { state.registry with
        classes := state.registry.classes.insert (.ofNode node state.registry.defaultToggles) }
      touched := state.touched ++ [node.id]
      report := { state.report with classesAdded := state.report.classesAdded + 1 } } := by
  rw [technicalNode, new, isClass]
  rfl

theorem technicalNode_of_method (new : state.registry.containsNode node.id = false)
    (isMethod : node.kind = .method) :
    state.technicalNode node = { state with pending := state.pending.insert node } := by
  rw [technicalNode, new, isMethod]
  rfl

/-- What a node does to the keys: a new class goes on the map, a new method
waits, and all else stays. -/
theorem keys_technicalNode (state : Ingest R) (node : Node) (id : NodeId) :
    (id ∈ (state.technicalNode node).registry.classes.keys ↔
      id ∈ state.registry.classes.keys ∨
        (state.registry.containsNode id = false ∧ node.id = id ∧ node.kind = .classType)) ∧
    (id ∈ (state.technicalNode node).pending.keys ↔
      id ∈ state.pending.keys ∨
        (state.registry.containsNode id = false ∧ node.id = id ∧ node.kind = .method)) ∧
    (state.technicalNode node).registry.methods = state.registry.methods ∧
    (state.technicalNode node).registry.standalone = state.registry.standalone := by
  cases known : state.registry.containsNode node.id with
  | true =>
    rw [technicalNode_of_known known]
    grind
  | false =>
    by_cases isClass : node.kind = .classType
    · rw [technicalNode_of_class known isClass, Store.mem_keys_insert]
      have key : Keyed.key (ClassNode.ofNode (R := R) node state.registry.defaultToggles) =
          node.id := rfl
      grind
    · by_cases isMethod : node.kind = .method
      · rw [technicalNode_of_method known isMethod, Store.mem_keys_insert]
        have key : Keyed.key node = node.id := rfl
        grind
      · rw [technicalNode_of_other isClass isMethod]
        grind

theorem containsNode_technicalNode (state : Ingest R) (node : Node) (id : NodeId) :
    (state.technicalNode node).registry.containsNode id = true ↔
      state.registry.containsNode id = true ∨ (node.id = id ∧ node.kind = .classType) := by
  obtain ⟨classes, _, methods, standalone⟩ := keys_technicalNode state node id
  simp only [Registry.containsNode_iff, ← Bool.not_eq_true, methods, standalone] at classes ⊢
  grind

theorem mem_classes_technicalNodes {state : Ingest R} {id : NodeId} :
    id ∈ (nodes.foldl technicalNode state).registry.classes.keys ↔
      id ∈ state.registry.classes.keys ∨
        (state.registry.containsNode id = false ∧ BringsClass nodes id) := by
  induction nodes generalizing state with
  | nil => simp [not_bringsClass_nil]
  | cons node rest ih =>
    have contains := containsNode_technicalNode state node id
    rw [List.foldl_cons, ih, (keys_technicalNode state node id).1, bringsClass_cons]
    grind

/-- After its nodes a batch waits for the owners of those new methods that come
before any class with their id. -/
theorem mem_pending_technicalNodes {state : Ingest R} {id : NodeId} :
    id ∈ (nodes.foldl technicalNode state).pending.keys ↔
      id ∈ state.pending.keys ∨
        (state.registry.containsNode id = false ∧ MethodFirst nodes id) := by
  induction nodes generalizing state with
  | nil => simp [not_methodFirst_nil]
  | cons node rest ih =>
    have contains := containsNode_technicalNode state node id
    rw [List.foldl_cons, ih, (keys_technicalNode state node id).2.1, methodFirst_cons]
    grind

theorem rest_technicalNodes (nodes : List Node) (state : Ingest R) :
    (nodes.foldl technicalNode state).registry.methods = state.registry.methods ∧
      (nodes.foldl technicalNode state).registry.standalone = state.registry.standalone := by
  induction nodes generalizing state with
  | nil => exact ⟨rfl, rfl⟩
  | cons node rest ih =>
    obtain ⟨_, _, methods, standalone⟩ := keys_technicalNode state node ""
    obtain ⟨restMethods, restStandalone⟩ := ih (state.technicalNode node)
    exact ⟨restMethods.trans methods, restStandalone.trans standalone⟩

/-! ## Claims -/

section
omit [Scalar R]

theorem claimMethod_of_passed {link : Relationship} (passed : ¬ (link.kind = .hasMethod ∧
      link.source ∈ state.registry.classes.keys ∧
      link.target ∈ state.pending.keys)) : state.claimMethod link = state := by
  rcases claimMethod_cases state link with same | ⟨_, claims, owner, found, _⟩
  · exact same
  · exact absurd ⟨claims, owner, Store.mem_keys_of_get? found⟩ passed

theorem claimMethod_of_claim {link : Relationship} (claims : link.kind = .hasMethod)
    (owner : link.source ∈ state.registry.classes.keys)
    (found : state.pending.get? link.target = some node) :
    state.claimMethod link = state.claiming link node := by
  rw [claimMethod, if_neg (by simp [claims, Store.contains_iff.mpr owner]), found]
  rfl

/-- What a relationship does to the keys: a method that waits for this claim goes
on the map, and all else stays. -/
theorem keys_claimMethod (state : Ingest R) (link : Relationship) (id : NodeId) :
    (id ∈ (state.claimMethod link).registry.methods.keys ↔
      id ∈ state.registry.methods.keys ∨
        (id ∈ state.pending.keys ∧ link.kind = .hasMethod ∧
          link.source ∈ state.registry.classes.keys ∧ link.target = id)) ∧
    (id ∈ (state.claimMethod link).pending.keys ↔
      id ∈ state.pending.keys ∧
        ¬ (link.kind = .hasMethod ∧ link.source ∈ state.registry.classes.keys ∧ link.target = id)) ∧
    (state.claimMethod link).registry.classes.keys = state.registry.classes.keys ∧
    (state.claimMethod link).registry.standalone = state.registry.standalone := by
  by_cases passed : link.kind = .hasMethod ∧
      link.source ∈ state.registry.classes.keys ∧
      link.target ∈ state.pending.keys
  · obtain ⟨claims, owner, waiting⟩ := passed
    obtain ⟨node, found⟩ := Store.exists_get? waiting
    have nodeKey : node.id = link.target := Store.key_of_get? found
    have key : Keyed.key (Method.ofNode node link.source) = link.target := nodeKey
    rw [claimMethod_of_claim claims owner found, Store.mem_keys_insert, Store.mem_keys_erase, key]
    refine ⟨?_, ?_, Store.keys_modify fun _ same => same, rfl⟩ <;> grind
  · rw [claimMethod_of_passed passed]
    grind

theorem keys_claims (links : List Relationship) (state : Ingest R) :
    (links.foldl claimMethod state).registry.classes.keys =
        state.registry.classes.keys ∧
      (links.foldl claimMethod state).registry.standalone = state.registry.standalone := by
  induction links generalizing state with
  | nil => exact ⟨rfl, rfl⟩
  | cons link rest ih =>
    obtain ⟨_, _, classes, standalone⟩ := keys_claimMethod state link ""
    rw [List.foldl_cons, (ih _).1, (ih _).2]
    exact ⟨classes, standalone⟩

/-- A method that waits goes on the map if a class on the map claims it. -/
theorem mem_methods_claims {state : Ingest R} {id : NodeId} :
    id ∈ (links.foldl claimMethod state).registry.methods.keys ↔
      id ∈ state.registry.methods.keys ∨
        (id ∈ state.pending.keys ∧ Claimed links state.registry.classes.keys id) := by
  induction links generalizing state with
  | nil => simp [Claimed]
  | cons link rest ih =>
    obtain ⟨methods, pending, classes, _⟩ := keys_claimMethod state link id
    rw [List.foldl_cons, ih, methods, pending, classes, claimed_cons]
    grind

end

/-! ## Nodes of the architecture perspective -/

theorem architectureNode_of_passed
    (passed : state.registry.containsNode node.id = true ∨ node.kind.isStandalone = false) :
    state.architectureNode node = state := by
  rcases architectureNode_cases state node with same | ⟨_, _, _, new, standalone, _⟩
  · exact same
  · simp [new, standalone] at passed

theorem architectureNode_of_new (new : state.registry.containsNode node.id = false)
    (standalone : node.kind.isStandalone = true) :
    ∃ (item : StandaloneNode R) (pool : Pool R), item.id = node.id ∧
      state.architectureNode node = { state with
        registry := { state.registry with
          pool
          standalone := state.registry.standalone.insert item }
        report :=
          { state.report with standaloneAdded := state.report.standaloneAdded + 1 } } := by
  rw [architectureNode, if_neg (by simp [new, standalone])]
  exact ⟨_, _, rfl, rfl⟩

/-- What a node of the architecture perspective does to the keys. -/
theorem keys_architectureNode (state : Ingest R) (node : Node) (id : NodeId) :
    (id ∈ (state.architectureNode node).registry.standalone.keys ↔
      id ∈ state.registry.standalone.keys ∨
        (state.registry.containsNode id = false ∧ node.id = id ∧ node.kind.isStandalone = true)) ∧
    (state.architectureNode node).registry.classes = state.registry.classes ∧
    (state.architectureNode node).registry.methods = state.registry.methods := by
  cases known : state.registry.containsNode node.id with
  | true =>
    rw [architectureNode_of_passed (Or.inl known)]
    grind
  | false =>
    cases standalone : node.kind.isStandalone with
    | false =>
      rw [architectureNode_of_passed (Or.inr standalone)]
      grind
    | true =>
      obtain ⟨item, pool, itemId, added⟩ := architectureNode_of_new known standalone
      have key : Keyed.key item = node.id := itemId
      rw [added, Store.mem_keys_insert, key]
      grind

theorem containsNode_architectureNode {id : NodeId} :
    (state.architectureNode node).registry.containsNode id = true ↔
      state.registry.containsNode id = true ∨ (node.id = id ∧ node.kind.isStandalone = true) := by
  obtain ⟨standalone, classes, methods⟩ := keys_architectureNode state node id
  simp only [Registry.containsNode_iff, ← Bool.not_eq_true, classes, methods] at standalone ⊢
  grind

/-- Every node with a box of its own is on the map after the nodes of a batch. -/
theorem containsNode_architectureNodes {state : Ingest R} {id : NodeId} :
    (nodes.foldl architectureNode state).registry.containsNode id = true ↔
      state.registry.containsNode id = true ∨
        ∃ node ∈ nodes, node.id = id ∧ node.kind.isStandalone = true := by
  induction nodes generalizing state with
  | nil => simp
  | cons node rest ih =>
    rw [List.foldl_cons, ih, containsNode_architectureNode, or_assoc, List.exists_mem_cons_iff]

/-! ## Edges -/

section
omit [Scalar R]

/-- What a relationship does to the keys when edges are taken in: nodes stay, and
an edge goes on the map if it is drawn between nodes of the map. -/
theorem keys_edge (state : Ingest R) (link : Relationship) (id : EdgeId) :
    (id ∈ (state.edge link).registry.edges.keys ↔
      id ∈ state.registry.edges.keys ∨
        (link.id = id ∧ link.kind.isRendered = true ∧
          state.registry.containsNode link.source = true ∧
          state.registry.containsNode link.target = true)) ∧
    (state.edge link).registry.classes = state.registry.classes ∧
    (state.edge link).registry.methods = state.registry.methods ∧
    (state.edge link).registry.standalone = state.registry.standalone := by
  unfold edge
  dsimp only
  split
  · next passed =>
      simp only [Bool.or_eq_true, Bool.not_eq_true', Store.contains_iff] at passed
      grind
  · split
    · next missing =>
        simp only [Bool.or_eq_true, Bool.not_eq_true'] at missing
        grind
    · next kept joined =>
        simp only [Bool.or_eq_true, Bool.not_eq_true', not_or, Bool.not_eq_false] at kept joined
        rw [Store.mem_keys_insert]
        have key : Keyed.key (⟨link.id, link.kind, link.source,
          link.target, none⟩ : Edge) = link.id := rfl
        grind

theorem nodes_edges (links : List Relationship) (state : Ingest R) :
    (links.foldl edge state).registry.classes = state.registry.classes ∧
      (links.foldl edge state).registry.methods = state.registry.methods ∧
      (links.foldl edge state).registry.standalone = state.registry.standalone := by
  induction links generalizing state with
  | nil => exact ⟨rfl, rfl, rfl⟩
  | cons link rest ih =>
    obtain ⟨_, classes, methods, standalone⟩ := keys_edge state link ""
    obtain ⟨restClasses, restMethods, restStandalone⟩ :=
      ih (state.edge link)
    exact ⟨restClasses.trans classes, restMethods.trans methods, restStandalone.trans standalone⟩

theorem containsNode_edges (links : List Relationship) (state : Ingest R) (id : NodeId) :
    (links.foldl edge state).registry.containsNode id = state.registry.containsNode id := by
  obtain ⟨classes, methods, standalone⟩ := nodes_edges links state
  rw [Registry.containsNode, classes, methods, standalone]
  rfl

/-- Every drawn relationship between nodes of the map becomes an edge, unless its
id is taken. -/
theorem mem_edges_edges {state : Ingest R} {id : EdgeId} :
    id ∈ (links.foldl edge state).registry.edges.keys ↔
      id ∈ state.registry.edges.keys ∨
        ∃ link ∈ links, link.id = id ∧
          link.kind.isRendered = true ∧
          state.registry.containsNode link.source = true ∧
          state.registry.containsNode link.target = true := by
  induction links generalizing state with
  | nil => simp
  | cons link rest ih =>
    have same := containsNode_edges [link] state
    rw [List.foldl_cons, ih, (keys_edge state link id).1, or_assoc, List.exists_mem_cons_iff]
    simp only [List.foldl_cons, List.foldl_nil] at same
    simp only [same]

end

end Ingest

/-! ## The map after a batch -/

namespace Registry

/-- How texts are measured, the sizes of boxes, and the toggles of new classes. -/
def setup (reg : Registry R) : TextMetrics R × NodeMetrics R × Toggles :=
  (reg.text, reg.metrics, reg.defaultToggles)

/-- What a batch leaves as it is. -/
theorem Coherent.frame_addData (coherent : reg.Coherent) (nodes : List Node)
    (links : List Relationship) :
    ((reg.addData nodes links).2.perspective,
      (reg.addData nodes links).2.setup) =
        (reg.perspective, reg.setup) := by
  apply coherent.withData_induction (motive := fun (state : Ingest R) =>
    (state.registry.perspective, state.registry.setup) = (reg.perspective, reg.setup))
  · rfl
  · intro state _ held node _
    rcases Ingest.technicalNode_cases state node with same | ⟨_, _, added⟩ | ⟨_, _, added⟩
    · rw [same]
      exact held
    · rw [added]
      exact held
    · rw [added]
      exact held
  · intro state _ held link
    rcases Ingest.claimMethod_cases state link with same | ⟨_, _, _, _, claimed⟩
    · rw [same]
      exact held
    · rw [claimed]
      exact held
  · intro state ready held
    have same := bare_refreshClasses
      ((state.touched.mergeSort fun a b => decide (a ≤ b)).eraseDups) ready.coherent.methodKeys
    exact (congrArg (fun map => (map.perspective, map.setup)) same).trans held
  · intro state _ held node
    rcases Ingest.architectureNode_cases state node with same | ⟨_, _, _, _, _, _, _, _, added⟩
    · rw [same]
      exact held
    · rw [added]
      exact held
  · intro state held link
    rcases Ingest.edge_cases state link with ⟨_, same⟩ | ⟨_, _, _, _, added⟩
    · rw [same]
      exact held
    · rw [added]
      exact held

theorem Coherent.perspective_addData (coherent : reg.Coherent) (nodes : List Node)
    (links : List Relationship) :
    (reg.addData nodes links).2.perspective = reg.perspective :=
  congrArg Prod.fst (coherent.frame_addData nodes links)

/-- Under the technical perspective a batch brings the new classes in it. -/
theorem Coherent.mem_classes_addData (coherent : reg.Coherent)
    (technical : reg.perspective = .technical) {id : NodeId} :
    id ∈ (reg.addData nodes links).2.classes.keys ↔
      id ∈ reg.classes.keys ∨
        (reg.containsNode id = false ∧ BringsClass nodes id) := by
  rw [(coherent.keys_addData technical nodes links).1, (Ingest.keys_claims _ _).1,
    Ingest.mem_classes_technicalNodes]

/-- Under the technical perspective a batch brings those new methods in it that
come before any class with their id and that a class on the map claims. -/
theorem Coherent.mem_methods_addData (coherent : reg.Coherent)
    (technical : reg.perspective = .technical) {id : NodeId} :
    id ∈ (reg.addData nodes links).2.methods.keys ↔
      id ∈ reg.methods.keys ∨
        (reg.containsNode id = false ∧ MethodFirst nodes id ∧
          Claimed links (reg.addData nodes links).2.classes.keys id) := by
  obtain ⟨classes, methods⟩ := coherent.keys_addData technical nodes links
  rw [classes, methods, (Ingest.keys_claims _ _).1, Ingest.mem_methods_claims,
    Ingest.mem_pending_technicalNodes, (Ingest.rest_technicalNodes nodes { registry := reg }).1]
  simp [Store.keys, and_assoc]

/-- One id comes as a method, as a class and as a method again. -/
def clashNodes : List Node :=
  [⟨"x", ["Method"], []⟩, ⟨"x", ["Class"], []⟩, ⟨"owner", ["Class"], []⟩, ⟨"x", ["Method"], []⟩]

/-- Two classes claim it, one of them the class of that id. -/
def clashClaims : List Relationship :=
  [⟨"first", "HAS_METHOD", "owner", "x", []⟩, ⟨"second", "HAS_METHOD", "x", "x", []⟩]

end Registry

end CodeAtlas
