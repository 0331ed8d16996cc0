import CodeAtlas.Proofs.Registry.Coherence
import CodeAtlas.Registry.Ingest

/-!
# Taking in data, step by step

Each step over a batch either does nothing or makes one change whose guards are
known.  What the steps can do is said once, and the coherence of a whole batch
follows from it.
-/

namespace CodeAtlas

variable {R : Type} [Scalar R] {reg : Registry R} {state : Ingest R}

namespace Ingest

/-! ## What a step can do -/

/-- A node of the technical perspective is skipped, becomes a class, or waits
for an owner. -/
theorem technicalNode_cases (state : Ingest R) (node : Node) :
    state.technicalNode node = state ∨
      (state.registry.containsNode node.id = false ∧ node.kind = .classType ∧
        state.technicalNode node = { state with
          registry := { state.registry with
            classes := state.registry.classes.insert
              (.ofNode node state.registry.defaultToggles) }
          touched := state.touched ++ [node.id]
          report := { state.report with classesAdded := state.report.classesAdded + 1 } }) ∨
      (state.registry.containsNode node.id = false ∧ node.kind = .method ∧
        state.technicalNode node = { state with pending := state.pending.insert node }) := by
  unfold technicalNode
  cases known : state.registry.containsNode node.id with
  | true => exact Or.inl rfl
  | false =>
    cases kindEq : node.kind
    case classType => exact Or.inr (Or.inl ⟨rfl, rfl, rfl⟩)
    case method => exact Or.inr (Or.inr ⟨rfl, rfl, rfl⟩)
    all_goals exact Or.inl rfl

/-- A pending node goes on the map as a method of the class that claims it. -/
abbrev claiming (state : Ingest R) (link : Relationship) (node : Node) : Ingest R :=
  { registry := { state.registry with
      classes := state.registry.classes.modify link.source fun owner =>
        { owner with methods := owner.methods ++ [node.id] }
      methods := state.registry.methods.insert (.ofNode node link.source) }
    pending := state.pending.erase link.target
    touched := state.touched ++ [link.source]
    report := { state.report with methodsAdded := state.report.methodsAdded + 1 } }

omit [Scalar R] in
/-- A relationship is passed over, or lets a stored class claim a pending
method. -/
theorem claimMethod_cases (state : Ingest R) (link : Relationship) :
    state.claimMethod link = state ∨
      ∃ node, link.kind = .hasMethod ∧
        link.source ∈ state.registry.classes.keys ∧
        state.pending.get? link.target = some node ∧
        state.claimMethod link = state.claiming link node := by
  unfold claimMethod
  by_cases passed : link.kind ≠ .hasMethod ∨
      state.registry.classes.contains link.source = false
  · exact Or.inl (if_pos (by simpa using passed))
  · have claims : link.kind = .hasMethod ∧
        state.registry.classes.contains link.source = true := by
      simpa using passed
    rw [if_neg (by simp [claims])]
    cases found : state.pending.get? link.target with
    | none => exact Or.inl rfl
    | some node => exact Or.inr ⟨node, claims.1, Store.contains_iff.mp claims.2, rfl, rfl⟩

/-- A node of the architecture perspective is skipped, or becomes a box with a
label and an outline of its own. -/
theorem architectureNode_cases (state : Ingest R) (node : Node) :
    state.architectureNode node = state ∨
      ∃ (item : StandaloneNode R) (bitmap : LabelBitmap) (points : List (Vec R)),
        state.registry.containsNode node.id = false ∧ node.kind.isStandalone = true ∧
        item.id = node.id ∧
        item.label = some (state.registry.pool.allocateLabel bitmap).1 ∧
        item.outline =
          some ((state.registry.pool.allocateLabel bitmap).2.allocateShape points).1 ∧
        state.architectureNode node = { state with
          registry := { state.registry with
            pool := ((state.registry.pool.allocateLabel bitmap).2.allocateShape points).2
            standalone := state.registry.standalone.insert item }
          report :=
            { state.report with standaloneAdded := state.report.standaloneAdded + 1 } } := by
  unfold architectureNode
  by_cases skipped : state.registry.containsNode node.id = true ∨ node.kind.isStandalone = false
  · exact Or.inl (if_pos (by simpa using skipped))
  · have taken : state.registry.containsNode node.id = false ∧ node.kind.isStandalone = true := by
      simpa using skipped
    rw [if_neg (by simp [taken])]
    exact Or.inr ⟨_, _, _, taken.1, taken.2, rfl, rfl, rfl, rfl⟩

omit [Scalar R] in
/-- A relationship adds nothing to the map, or an edge between two nodes of the
map. -/
theorem edge_cases (state : Ingest R) (link : Relationship) :
    (∃ dropped, state.edge link =
      { state with report := { state.report with edgesDropped := dropped } }) ∨
      (link.kind.isRendered = true ∧ link.id ∉ state.registry.edges.keys ∧
        state.registry.containsNode link.source = true ∧
        state.registry.containsNode link.target = true ∧
        state.edge link = { state with
          registry := { state.registry with
            edges := state.registry.edges.insert
              ⟨link.id, link.kind, link.source, link.target, none⟩ }
          report := { state.report with edgesAdded := state.report.edgesAdded + 1 } }) := by
  unfold edge
  by_cases skipped : link.kind.isRendered = false ∨
      state.registry.edges.contains link.id = true
  · exact Or.inl ⟨state.report.edgesDropped, if_pos (by simpa using skipped)⟩
  · have taken : link.kind.isRendered = true ∧
        state.registry.edges.contains link.id = false := by
      simpa using skipped
    rw [if_neg (by simp [taken])]
    by_cases dropped : state.registry.containsNode link.source = false ∨
        state.registry.containsNode link.target = false
    · exact Or.inl ⟨state.report.edgesDropped + 1, if_pos (by simpa using dropped)⟩
    · have ends : state.registry.containsNode link.source = true ∧
          state.registry.containsNode link.target = true := by
        simpa using dropped
      rw [if_neg (by simp [ends])]
      exact Or.inr ⟨taken.1, Store.contains_eq_false_iff.mp taken.2, ends.1, ends.2, rfl⟩

end Ingest

/-! ## Coherence of single additions -/

namespace Registry

section
omit [Scalar R]

theorem Coherent.addClass (coherent : reg.Coherent)
    (technical : reg.perspective = .technical) {node : ClassNode R}
    (new : node.id ∉ reg.classes.keys) (noRows : node.methods = [])
    (noFocus : node.focusedMethod = none) :
    { reg with classes := reg.classes.insert node }.Coherent := by
  have keysEq : (reg.classes.insert node).keys = reg.classes.keys ++ [node.id] :=
    Store.keys_insert_of_new new
  have split : ∀ {other : ClassNode R}, other ∈ (reg.classes.insert node).items ↔
      other ∈ reg.classes.items ∨ other = node :=
    Store.mem_insert_of_new new
  refine ⟨Store.nodup_keys_insert coherent.classKeys new, coherent.methodKeys,
    coherent.standaloneKeys, coherent.edgeKeys, ?_, ?_, ?_, ?_, ?_, coherent.drawn,
    coherent.technical, ?_⟩
  · intro method mem
    obtain ⟨owner, ownerMem, ownerId, listed⟩ := coherent.owner method mem
    exact ⟨owner, split.mpr (Or.inl ownerMem), ownerId, listed⟩
  · intro other mem
    rcases split.mp mem with old | rfl
    · exact coherent.rows other old
    · exact noRows ▸ List.nodup_nil
  · intro other mem id listed
    rcases split.mp mem with old | rfl
    · exact coherent.member other old id listed
    · rw [noRows] at listed
      cases listed
  · intro other mem id focused
    rcases split.mp mem with old | rfl
    · exact coherent.focus other old id focused
    · rw [noFocus] at focused
      cases focused
  · intro edge mem
    have ends := coherent.ends edge mem
    simp only [containsNode_iff, keysEq, List.mem_append] at ends ⊢
    exact ⟨ends.1.imp_left Or.inl, ends.2.imp_left Or.inl⟩
  · intro architecture
    rw [technical] at architecture
    cases architecture

/-- A class that claims a method has it as a row besides its old ones. -/
theorem exists_class_listing {classes : Store (ClassNode R)} {node : ClassNode R}
    (mem : node ∈ classes.items) (classId id : NodeId) :
    ∃ changed ∈ (classes.modify classId fun owner =>
        { owner with methods := owner.methods ++ [id] }).items,
      changed.id = node.id ∧
        ∀ row, row ∈ changed.methods ↔ row ∈ node.methods ∨ node.id = classId ∧ row = id := by
  by_cases same : node.id = classId
  · refine ⟨_, Store.mem_modify.mpr (Or.inl ⟨node, mem, same, rfl⟩), rfl, ?_⟩
    simp [same]
  · refine ⟨node, Store.mem_modify.mpr (Or.inr ⟨mem, same⟩), rfl, ?_⟩
    simp [same]

theorem Coherent.addMethod (coherent : reg.Coherent)
    (technical : reg.perspective = .technical) (method : Method)
    (owned : method.classId ∈ reg.classes.keys) (new : method.id ∉ reg.methods.keys) :
    { reg with
      classes := reg.classes.modify method.classId fun owner =>
        { owner with methods := owner.methods ++ [method.id] }
      methods := reg.methods.insert method }.Coherent := by
  have classKeysEq : (reg.classes.modify method.classId fun owner =>
      { owner with methods := owner.methods ++ [method.id] }).keys = reg.classes.keys :=
    Store.keys_modify fun _ same => same
  have methodKeysEq :
      (reg.methods.insert method).keys = reg.methods.keys ++ [method.id] :=
    Store.keys_insert_of_new new
  have split : ∀ {other : Method}, other ∈ (reg.methods.insert method).items ↔
      other ∈ reg.methods.items ∨ other = method :=
    Store.mem_insert_of_new new
  -- A method that is new is no row of any class yet.
  have unlisted : ∀ node ∈ reg.classes.items, method.id ∉ node.methods := by
    intro node mem listed
    obtain ⟨known, knownMem, knownId, _⟩ := coherent.member node mem method.id listed
    exact new (Store.mem_keys_iff.mpr ⟨known, knownMem, knownId⟩)
  refine ⟨classKeysEq ▸ coherent.classKeys, Store.nodup_keys_insert coherent.methodKeys new,
    coherent.standaloneKeys, coherent.edgeKeys, ?_, ?_, ?_, ?_, ?_, coherent.drawn,
    coherent.technical, ?_⟩
  · intro other mem
    rcases split.mp mem with old | rfl
    · obtain ⟨node, nodeMem, nodeId, listed⟩ := coherent.owner other old
      obtain ⟨changed, changedMem, changedId, rows⟩ :=
        exists_class_listing nodeMem method.classId method.id
      exact ⟨changed, changedMem, changedId.trans nodeId, (rows other.id).mpr (Or.inl listed)⟩
    · obtain ⟨node, nodeMem, nodeId⟩ := Store.mem_keys_iff.mp owned
      obtain ⟨changed, changedMem, changedId, rows⟩ :=
        exists_class_listing nodeMem other.classId other.id
      exact ⟨changed, changedMem, changedId.trans nodeId,
        (rows other.id).mpr (Or.inr ⟨nodeId, rfl⟩)⟩
  · intro node mem
    rcases Store.mem_modify.mp mem with ⟨old, oldMem, _, rfl⟩ | ⟨oldMem, _⟩
    · exact (coherent.rows old oldMem).append (List.nodup_singleton _)
        (by simpa using unlisted old oldMem)
    · exact coherent.rows node oldMem
  · intro node mem id listed
    rcases Store.mem_modify.mp mem with ⟨old, oldMem, same, rfl⟩ | ⟨oldMem, _⟩
    · rcases List.mem_append.mp listed with before | added
      · obtain ⟨known, knownMem, knownId, ownerId⟩ := coherent.member old oldMem id before
        exact ⟨known, split.mpr (Or.inl knownMem), knownId, ownerId⟩
      · exact ⟨method, split.mpr (Or.inr rfl), (List.mem_singleton.mp added).symm, same.symm⟩
    · obtain ⟨known, knownMem, knownId, ownerId⟩ := coherent.member node oldMem id listed
      exact ⟨known, split.mpr (Or.inl knownMem), knownId, ownerId⟩
  · intro node mem id focused
    rcases Store.mem_modify.mp mem with ⟨old, oldMem, _, rfl⟩ | ⟨oldMem, _⟩
    · exact List.mem_append_left _ (coherent.focus old oldMem id focused)
    · exact coherent.focus node oldMem id focused
  · intro edge mem
    have ends := coherent.ends edge mem
    simp only [containsNode_iff, classKeysEq, methodKeysEq, List.mem_append] at ends ⊢
    exact ⟨ends.1.imp_right (Or.imp_left Or.inl), ends.2.imp_right (Or.imp_left Or.inl)⟩
  · intro architecture
    rw [technical] at architecture
    cases architecture

theorem Coherent.addStandalone (coherent : reg.Coherent)
    (architecture : reg.perspective = .architecture) {item : StandaloneNode R} {pool : Pool R}
    (new : item.id ∉ reg.standalone.keys) :
    { reg with pool, standalone := reg.standalone.insert item }.Coherent := by
  have keysEq : (reg.standalone.insert item).keys = reg.standalone.keys ++ [item.id] :=
    Store.keys_insert_of_new new
  refine ⟨coherent.classKeys, coherent.methodKeys,
    Store.nodup_keys_insert coherent.standaloneKeys new, coherent.edgeKeys, coherent.owner,
    coherent.rows, coherent.member, coherent.focus, ?_, coherent.drawn, ?_,
    coherent.architecture⟩
  · intro edge mem
    have ends := coherent.ends edge mem
    simp only [containsNode_iff, keysEq, List.mem_append] at ends ⊢
    exact ⟨ends.1.imp_right (Or.imp_right Or.inl), ends.2.imp_right (Or.imp_right Or.inl)⟩
  · intro technical
    rw [architecture] at technical
    cases technical

theorem Coherent.addEdge (coherent : reg.Coherent) {edge : Edge}
    (new : edge.id ∉ reg.edges.keys) (drawn : edge.kind ≠ .hasMethod)
    (source : reg.containsNode edge.source = true)
    (target : reg.containsNode edge.target = true) :
    { reg with edges := reg.edges.insert edge }.Coherent := by
  refine ⟨coherent.classKeys, coherent.methodKeys, coherent.standaloneKeys,
    Store.nodup_keys_insert coherent.edgeKeys new, coherent.owner, coherent.rows, coherent.member,
    coherent.focus, ?_, ?_, coherent.technical, coherent.architecture⟩
  · intro other mem
    rcases (Store.mem_insert_of_new new).mp mem with old | rfl
    · exact coherent.ends other old
    · exact ⟨source, target⟩
  · intro other mem
    rcases (Store.mem_insert_of_new new).mp mem with old | rfl
    · exact coherent.drawn other old
    · exact drawn

end

end Registry

/-! ## Coherence of a batch -/

namespace Ingest

/-- A batch on its way into a coherent map of the technical perspective: what is
still pending is not on the map. -/
structure Ready (state : Ingest R) : Prop where
  coherent : state.registry.Coherent
  technical : state.registry.perspective = .technical
  pending : ∀ node ∈ state.pending.items, node.id ∉ state.registry.methods.keys

omit [Scalar R] in
theorem not_mem_keys_of_new {id : NodeId} (new : reg.containsNode id = false) :
    id ∉ reg.classes.keys ∧ id ∉ reg.methods.keys ∧ id ∉ reg.standalone.keys := by
  have absent : ¬ reg.containsNode id = true := by simp [new]
  rw [Registry.containsNode_iff] at absent
  exact ⟨fun mem => absent (Or.inl mem), fun mem => absent (Or.inr (Or.inl mem)),
    fun mem => absent (Or.inr (Or.inr mem))⟩

theorem Ready.technicalNode (ready : state.Ready) (node : Node) :
    (state.technicalNode node).Ready := by
  rcases technicalNode_cases state node with same | ⟨new, _, added⟩ | ⟨new, _, added⟩
  · rw [same]
    exact ready
  · rw [added]
    exact ⟨ready.coherent.addClass ready.technical (not_mem_keys_of_new new).1 rfl rfl,
      ready.technical, ready.pending⟩
  · rw [added]
    refine ⟨ready.coherent, ready.technical, ?_⟩
    intro waiting mem
    rcases Store.eq_or_mem_of_mem_insert mem with rfl | old
    · exact (not_mem_keys_of_new new).2.1
    · exact ready.pending waiting old

omit [Scalar R] in
theorem Ready.claimMethod (ready : state.Ready) (link : Relationship) :
    (state.claimMethod link).Ready := by
  rcases claimMethod_cases state link with same | ⟨node, _, owned, found, claimed⟩
  · rw [same]
    exact ready
  · have new : node.id ∉ state.registry.methods.keys :=
      ready.pending node (Store.mem_of_get? found)
    rw [claimed]
    refine ⟨ready.coherent.addMethod ready.technical (.ofNode node link.source) owned new,
      ready.technical, ?_⟩
    intro waiting mem
    obtain ⟨old, different⟩ := Store.mem_erase.mp mem
    have targetEq : node.id = link.target := Store.key_of_get? found
    have keysEq : (state.registry.methods.insert (.ofNode node link.source)).keys =
        state.registry.methods.keys ++ [node.id] :=
      Store.keys_insert_of_new new
    rw [keysEq, List.mem_append, List.mem_singleton, not_or, targetEq]
    exact ⟨ready.pending waiting old, different⟩

/-- What the nodes and claims of a batch keep, given that it stays ready. -/
theorem Ready.claims_induction (ready : state.Ready) (nodes : List Node)
    (links : List Relationship) {motive : Ingest R → Prop} (start : motive state)
    (technical : ∀ state : Ingest R, state.Ready → motive state →
      ∀ node ∈ nodes, motive (state.technicalNode node))
    (claim : ∀ state : Ingest R, state.Ready → motive state →
      ∀ link, motive (state.claimMethod link)) :
    (links.foldl Ingest.claimMethod (nodes.foldl Ingest.technicalNode state)).Ready ∧
      motive
        (links.foldl Ingest.claimMethod (nodes.foldl Ingest.technicalNode state)) := by
  apply List.foldlRecOn (motive := fun state => state.Ready ∧ motive state)
  · apply List.foldlRecOn (motive := fun state => state.Ready ∧ motive state)
    · exact ⟨ready, start⟩
    · intro state held node mem
      exact ⟨held.1.technicalNode node, technical state held.1 held.2 node mem⟩
  · intro state held link _
    exact ⟨held.1.claimMethod link, claim state held.1 held.2 link⟩

end Ingest

namespace Registry

/-- The map after the nodes of a batch, before its edges. -/
def withNodes (reg : Registry R) (nodes : List Node) (links : List Relationship) :
    Ingest R :=
  match reg.perspective with
  | .technical => Ingest.technical { registry := reg } nodes links
  | .architecture => nodes.foldl Ingest.architectureNode { registry := reg }

/-- The map and the report after a batch. -/
def withData (reg : Registry R) (nodes : List Node) (links : List Relationship) :
    Ingest R :=
  links.foldl Ingest.edge (reg.withNodes nodes links)

theorem addData_eq (reg : Registry R) (nodes : List Node) (links : List Relationship) :
    reg.addData nodes links =
      ((reg.withData nodes links).report, (reg.withData nodes links).registry) :=
  rfl

/-- What every step of a batch keeps holds after the batch. -/
theorem Coherent.withData_induction (coherent : reg.Coherent)
    {nodes : List Node} {links : List Relationship} {motive : Ingest R → Prop}
    (start : motive { registry := reg })
    (technical : ∀ state : Ingest R, state.Ready → motive state →
      ∀ node ∈ nodes, motive (state.technicalNode node))
    (claim : ∀ state : Ingest R, state.Ready → motive state →
      ∀ link, motive (state.claimMethod link))
    (refresh : ∀ state : Ingest R, state.Ready → motive state → motive state.refreshTouched)
    (architecture : ∀ state : Ingest R, state.registry.perspective = .architecture →
      motive state → ∀ node, motive (state.architectureNode node))
    (edge : ∀ state : Ingest R, motive state → ∀ link, motive (state.edge link)) :
    motive (reg.withData nodes links) := by
  apply List.foldlRecOn (motive := motive)
  · unfold withNodes
    cases perspective : reg.perspective with
    | technical =>
      have ready : Ingest.Ready { registry := reg } := ⟨coherent, perspective, by simp⟩
      have claimed := ready.claims_induction nodes links start technical claim
      exact refresh _ claimed.1 claimed.2
    | architecture =>
      refine (List.foldlRecOn (motive := fun (state : Ingest R) =>
        state.registry.perspective = .architecture ∧ motive state) nodes
          Ingest.architectureNode ⟨perspective, start⟩ ?_).2
      intro state held node _
      refine ⟨?_, architecture state held.1 held.2 node⟩
      rcases Ingest.architectureNode_cases state node with same | ⟨_, _, _, _, _, _, _, _, added⟩
      · rw [same]
        exact held.1
      · rw [added]
        exact held.1
  · exact fun state held link _ => edge state held link

theorem Coherent.addData (coherent : reg.Coherent) (nodes : List Node) (links : List Relationship) :
    (reg.addData nodes links).2.Coherent := by
  apply coherent.withData_induction (motive := fun (state : Ingest R) => state.registry.Coherent)
  · exact coherent
  · exact fun state ready _ node _ => (ready.technicalNode node).coherent
  · exact fun state ready _ link => (ready.claimMethod link).coherent
  · exact fun state ready _ =>
      ready.coherent.of_bare_eq (bare_refreshClasses _ ready.coherent.methodKeys)
  · intro state architecture held node
    rcases Ingest.architectureNode_cases state node with
      same | ⟨item, _, _, new, _, itemId, _, _, added⟩
    · rw [same]
      exact held
    · rw [added]
      exact held.addStandalone architecture (itemId ▸ (Ingest.not_mem_keys_of_new new).2.2)
  · intro state held link
    rcases Ingest.edge_cases state link with
      ⟨_, same⟩ | ⟨rendered, new, source, target, added⟩
    · rw [same]
      exact held
    · rw [added]
      refine held.addEdge new ?_ source target
      intro hasMethod
      have kindEq : link.kind = .hasMethod := hasMethod
      rw [kindEq] at rendered
      cases rendered

theorem coherent_setData (reg : Registry R) (nodes : List Node)
    (links : List Relationship) : (reg.setData nodes links).2.Coherent :=
  (coherent_clear reg).addData nodes links

section

variable (coherent : reg.Coherent) (technical : reg.perspective = .technical) (nodes) (links)
include coherent technical

/-- Under the technical perspective the classes on the map are the old ones and
those of the batch, and the methods are the old ones and those that a class
claims, as they look before their boxes and rows are made. -/
theorem Coherent.bare_addData :
    let claimed := links.foldl Ingest.claimMethod
      (nodes.foldl Ingest.technicalNode { registry := reg })
    (reg.addData nodes links).2.bare.classes = claimed.registry.bare.classes ∧
      (reg.addData nodes links).2.bare.methods = claimed.registry.bare.methods := by
  intro claimed
  have ready : Ingest.Ready { registry := reg } := ⟨coherent, technical, by simp⟩
  have claimedReady : claimed.Ready :=
    (ready.claims_induction nodes links (motive := fun _ => True) trivial
      (fun _ _ _ _ _ => trivial) fun _ _ _ _ => trivial).1
  have refreshed : (reg.withNodes nodes links).registry.bare =
      claimed.registry.bare := by
    rw [withNodes, technical]
    exact bare_refreshClasses _ claimedReady.coherent.methodKeys
  have joined : (reg.withData nodes links).registry.classes =
        (reg.withNodes nodes links).registry.classes ∧
      (reg.withData nodes links).registry.methods =
        (reg.withNodes nodes links).registry.methods := by
    apply List.foldlRecOn (motive := fun (state : Ingest R) =>
      state.registry.classes = (reg.withNodes nodes links).registry.classes ∧
        state.registry.methods = (reg.withNodes nodes links).registry.methods)
    · exact ⟨rfl, rfl⟩
    · intro state kept link _
      rcases Ingest.edge_cases state link with ⟨_, same⟩ | ⟨_, _, _, _, added⟩
      · rw [same]
        exact kept
      · rw [added]
        exact kept
  rw [addData_eq, ← refreshed, bare, bare, joined.1, joined.2]
  exact ⟨rfl, rfl⟩

/-- So their ids are known before boxes and rows are made. -/
theorem Coherent.keys_addData :
    let claimed := links.foldl Ingest.claimMethod
      (nodes.foldl Ingest.technicalNode { registry := reg })
    (reg.addData nodes links).2.classes.keys = claimed.registry.classes.keys ∧
      (reg.addData nodes links).2.methods.keys = claimed.registry.methods.keys := by
  intro claimed
  obtain ⟨classes, methods⟩ := coherent.bare_addData technical nodes links
  rw [← keys_bare_classes, ← keys_bare_methods, classes, methods, keys_bare_classes,
    keys_bare_methods]
  exact ⟨rfl, rfl⟩

end

/-! ## Batches that add nothing -/

/-- A batch that reports no addition leaves the map as it was. -/
theorem Coherent.addData_of_not_changed (coherent : reg.Coherent) {nodes : List Node}
    {links : List Relationship}
    (unchanged : (reg.addData nodes links).1.changed = false) :
    (reg.addData nodes links).2 = reg := by
  have kept : (reg.withData nodes links).report.changed = false →
      (reg.withData nodes links).registry = reg ∧
        (reg.withData nodes links).touched = [] := by
    apply coherent.withData_induction (motive := fun (state : Ingest R) =>
      state.report.changed = false → state.registry = reg ∧ state.touched = [])
    · exact fun _ => ⟨rfl, rfl⟩
    · intro state _ held node _
      rcases Ingest.technicalNode_cases state node with same | ⟨_, _, added⟩ | ⟨_, _, added⟩
      · rw [same]
        exact held
      · rw [added]
        intro noChange
        simp [IngestReport.changed] at noChange
      · rw [added]
        exact held
    · intro state _ held link
      rcases Ingest.claimMethod_cases state link with same | ⟨_, _, _, _, claimed⟩
      · rw [same]
        exact held
      · rw [claimed]
        intro noChange
        simp [IngestReport.changed] at noChange
    · intro state _ held noChange
      obtain ⟨same, untouched⟩ := held noChange
      simp [Ingest.refreshTouched, same, untouched]
    · intro state _ held node
      rcases Ingest.architectureNode_cases state node with same | ⟨_, _, _, _, _, _, _, _, added⟩
      · rw [same]
        exact held
      · rw [added]
        intro noChange
        simp [IngestReport.changed] at noChange
    · intro state held link
      rcases Ingest.edge_cases state link with ⟨_, same⟩ | ⟨_, _, _, _, added⟩
      · rw [same]
        exact held
      · rw [added]
        intro noChange
        simp [IngestReport.changed] at noChange
  exact (kept unchanged).1

end Registry

end CodeAtlas
