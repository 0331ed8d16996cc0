import CodeAtlas.Proofs.Engine.Scene
import CodeAtlas.Proofs.Registry.Batch

/-!
# Batches that come again

After a batch the map has everything that the batch can bring, however its nodes
and relationships contradict each other.  Such a map absorbs the batch: taking it
in once more adds nothing, and what is shown stays as it is to the last detail.
-/

namespace CodeAtlas

variable {R : Type} [Scalar R] {reg : Registry R}

namespace Registry

/-- Whatever a batch could bring is on the map. -/
structure Absorbs (reg : Registry R) (nodes : List Node)
    (links : List Relationship) : Prop where
  technical : reg.perspective = .technical → ∀ node ∈ nodes,
    node.kind = .classType ∨
        (node.kind = .method ∧ Claimed links reg.classes.keys node.id) →
      reg.containsNode node.id = true
  architecture : reg.perspective = .architecture → ∀ node ∈ nodes,
    node.kind.isStandalone = true → reg.containsNode node.id = true
  edges : ∀ link ∈ links, link.kind.isRendered = true →
    reg.containsNode link.source = true →
    reg.containsNode link.target = true →
    link.id ∈ reg.edges.keys

/-- What is shown does not matter. -/
theorem Absorbs.of_bare_eq {reg other : Registry R} {nodes : List Node}
    {links : List Relationship} (absorbs : reg.Absorbs nodes links)
    (same : other.bare = reg.bare) : other.Absorbs nodes links := by
  have perspective : other.bare.perspective = reg.bare.perspective := by
    rw [same]
  change other.perspective = reg.perspective at perspective
  have contains : ∀ id, other.containsNode id = reg.containsNode id := by
    intro id
    rw [← containsNode_bare, same, containsNode_bare]
  have classes : other.classes.keys = reg.classes.keys := by
    rw [← keys_bare_classes, same, keys_bare_classes]
  have edges : other.edges.keys = reg.edges.keys := by
    rw [← keys_bare_edges, same, keys_bare_edges]
  constructor
  · simp only [perspective, contains, classes]
    exact absorbs.technical
  · simp only [perspective, contains]
    exact absorbs.architecture
  · simp only [contains, edges]
    exact absorbs.edges

/-! ## The first time -/

theorem Coherent.absorbs_technical (coherent : reg.Coherent)
    (technical : reg.perspective = .technical) {nodes : List Node}
    {links : List Relationship} {node : Node} (mem : node ∈ nodes)
    (brought : node.kind = .classType ∨ (node.kind = .method ∧
      Claimed links (reg.addData nodes links).2.classes.keys node.id)) :
    (reg.addData nodes links).2.containsNode node.id = true := by
  rw [containsNode_iff, coherent.mem_classes_addData technical,
    coherent.mem_methods_addData technical]
  cases known : reg.containsNode node.id with
  | true =>
    rcases containsNode_iff.mp known with isClass | isMethod | isStandalone
    · exact Or.inl (Or.inl isClass)
    · exact Or.inr (Or.inl (Or.inl isMethod))
    · rw [Store.keys, coherent.technical technical] at isStandalone
      cases isStandalone
  | false =>
    by_cases asClass : BringsClass nodes node.id
    · exact Or.inl (Or.inr ⟨rfl, asClass⟩)
    · -- Without a class of the same id the method comes first, so it waits for the claim.
      rcases brought with isClass | ⟨isMethod, claimed⟩
      · exact absurd ⟨node, mem, rfl, isClass⟩ asClass
      · exact Or.inr (Or.inl (Or.inr ⟨rfl, methodFirst_of_mem mem isMethod asClass, claimed⟩))

/-- After a batch the map absorbs it. -/
theorem Coherent.absorbs_addData (coherent : reg.Coherent) (nodes : List Node)
    (links : List Relationship) :
    (reg.addData nodes links).2.Absorbs nodes links := by
  have perspective := coherent.perspective_addData nodes links
  constructor
  · intro technical node mem brought
    exact coherent.absorbs_technical (perspective.symm.trans technical) mem brought
  · intro architecture node mem standalone
    rw [addData_eq, withData, Ingest.containsNode_edges, withNodes,
      perspective.symm.trans architecture]
    exact Ingest.containsNode_architectureNodes.mpr (Or.inr ⟨node, mem, rfl, standalone⟩)
  · intro link mem rendered source target
    rw [addData_eq, withData, Ingest.containsNode_edges] at source target
    exact Ingest.mem_edges_edges.mpr (Or.inr ⟨link, mem, rfl, rendered, source, target⟩)

end Registry

/-! ## The second time -/

namespace Ingest

/-- A batch on its way that has brought nothing: only methods that are not on
the map wait for their owners. -/
structure Idle (before : Registry R) (nodes : List Node) (state : Ingest R) : Prop where
  registry : state.registry = before
  touched : state.touched = []
  report : state.report = { edgesDropped := state.report.edgesDropped }
  pending : ∀ node ∈ state.pending.items,
    node ∈ nodes ∧ node.kind = .method ∧ before.containsNode node.id = false

variable {reg : Registry R} {nodes : List Node} {links : List Relationship}
  {state : Ingest R}

section

variable (idle : state.Idle reg nodes)
include idle

theorem Idle.technicalNode (absorbs : reg.Absorbs nodes links)
    (technical : reg.perspective = .technical) {node : Node} (mem : node ∈ nodes) :
    (state.technicalNode node).Idle reg nodes := by
  rcases technicalNode_cases state node with same | ⟨new, isClass, _⟩ | ⟨new, isMethod, added⟩
  · rw [same]
    exact idle
  · rw [idle.registry, absorbs.technical technical node mem (Or.inl isClass)] at new
    cases new
  · rw [added]
    refine ⟨idle.registry, idle.touched, idle.report, ?_⟩
    intro waiting waitingMem
    rcases Store.eq_or_mem_of_mem_insert waitingMem with rfl | old
    · exact ⟨mem, isMethod, idle.registry ▸ new⟩
    · exact idle.pending waiting old

omit [Scalar R] in
theorem Idle.claimMethod (absorbs : reg.Absorbs nodes links)
    (technical : reg.perspective = .technical) {link : Relationship} (mem : link ∈ links) :
    (state.claimMethod link).Idle reg nodes := by
  rcases claimMethod_cases state link with same | ⟨node, claims, owner, found, _⟩
  · rw [same]
    exact idle
  · obtain ⟨nodeMem, isMethod, new⟩ := idle.pending node (Store.mem_of_get? found)
    have nodeId : node.id = link.target := Store.key_of_get? found
    have claimed : Claimed links reg.classes.keys node.id :=
      ⟨link, mem, claims, idle.registry ▸ owner, nodeId.symm⟩
    rw [absorbs.technical technical node nodeMem (Or.inr ⟨isMethod, claimed⟩)] at new
    cases new

theorem Idle.refreshTouched : state.refreshTouched.Idle reg nodes := by
  have same : state.refreshTouched.registry = state.registry := by
    simp [Ingest.refreshTouched, idle.touched]
  exact ⟨same.trans idle.registry, idle.touched, idle.report, idle.pending⟩

theorem Idle.architectureNode (absorbs : reg.Absorbs nodes links)
    (architecture : reg.perspective = .architecture) {node : Node} (mem : node ∈ nodes) :
    (state.architectureNode node).Idle reg nodes := by
  rcases architectureNode_cases state node with same | ⟨_, _, _, new, standalone, _⟩
  · rw [same]
    exact idle
  · rw [idle.registry, absorbs.architecture architecture node mem standalone] at new
    cases new

omit [Scalar R] in
theorem Idle.edge (absorbs : reg.Absorbs nodes links) {link : Relationship} (mem : link ∈ links) :
    (state.edge link).Idle reg nodes := by
  rcases edge_cases state link with ⟨dropped, same⟩ | ⟨rendered, new, source, target, _⟩
  · rw [same]
    exact ⟨idle.registry, idle.touched, by rw [idle.report], idle.pending⟩
  · rw [idle.registry] at new source target
    exact absurd (absorbs.edges link mem rendered source target) new

end

end Ingest

namespace Registry

/-- A map that absorbs a batch is not changed by it. -/
theorem Absorbs.idle {nodes : List Node} {links : List Relationship}
    (absorbs : reg.Absorbs nodes links) :
    (reg.withData nodes links).Idle reg nodes := by
  have start : Ingest.Idle reg nodes { registry := reg } := ⟨rfl, rfl, rfl, by simp⟩
  apply List.foldlRecOn (motive := fun (state : Ingest R) => state.Idle reg nodes)
  · unfold withNodes
    cases perspective : reg.perspective with
    | technical =>
      apply Ingest.Idle.refreshTouched
      apply List.foldlRecOn (motive := fun (state : Ingest R) => state.Idle reg nodes)
      · apply List.foldlRecOn (motive := fun (state : Ingest R) => state.Idle reg nodes)
        · exact start
        · exact fun state idle node mem => idle.technicalNode absorbs perspective mem
      · exact fun state idle link mem => idle.claimMethod absorbs perspective mem
    | architecture =>
      apply List.foldlRecOn (motive := fun (state : Ingest R) => state.Idle reg nodes)
      · exact start
      · exact fun state idle node mem => idle.architectureNode absorbs perspective mem
  · exact fun state idle link mem => idle.edge absorbs mem

end Registry

namespace Engine

theorem bare_addData (engine : Engine R) (nodes : List Node) (links : List Relationship) :
    (engine.addData nodes links).2.registry.bare =
      (engine.registry.addData nodes links).2.bare := by
  unfold addData
  dsimp only
  split
  · rw [bare_relayout, bare_leaveSequence]
  · rfl

/-- After every run of a new diagram, taking in a batch a second time reports
that nothing was added and leaves the whole diagram as it was after the first
time. -/
theorem addData_again (config : EngineConfig R) (text : TextMetrics R) (layouter : Layouter R)
    (viewport : Vec R) (operations : List (Operation R)) {engine : Engine R}
    (ran : (withLayouter config text layouter viewport).run operations = .ok engine)
    (nodes : List Node) (relationships : List Relationship) :
    let once := (engine.addData nodes relationships).2
    let again := once.addData nodes relationships
    again.1.classesAdded = 0 ∧ again.1.methodsAdded = 0 ∧ again.1.standaloneAdded = 0 ∧
      again.1.edgesAdded = 0 ∧ again.2 = once := by
  intro once again
  have sound := (sound_withLayouter config text layouter viewport).run ran
  have absorbs : once.registry.Absorbs nodes relationships :=
    (sound.coherent.absorbs_addData nodes relationships).of_bare_eq
      (bare_addData engine nodes relationships)
  have idle := absorbs.idle
  have againEq : again = ((once.registry.withData nodes relationships).report, once) := by
    have unchanged : (once.registry.withData nodes relationships).report.changed = false := by
      rw [idle.report]
      rfl
    change once.addData nodes relationships = _
    rw [addData, Registry.addData_eq, idle.registry]
    simp [unchanged]
  rw [againEq, idle.report]
  exact ⟨rfl, rfl, rfl, rfl, rfl⟩

theorem addData_again_clash :
    ∃ engine, sampleStart.run [.clear] = .ok engine ∧
      (engine.addData Registry.clashNodes Registry.clashClaims).1 =
        { classesAdded := 2, methodsAdded := 1 } ∧
      let once := (engine.addData Registry.clashNodes Registry.clashClaims).2
      let again := once.addData Registry.clashNodes Registry.clashClaims
      again.1.classesAdded = 0 ∧ again.1.methodsAdded = 0 ∧ again.1.standaloneAdded = 0 ∧
        again.1.edgesAdded = 0 ∧ again.2 = once :=
  ⟨sampleStart.clear, rfl, by decide, addData_again _ _ _ _ [.clear] rfl _ _⟩

end Engine

end CodeAtlas
