import CodeAtlas.Proofs.Registry.Placement

/-!
# Places and routes of a diagram

Every operation that changes a box, a row or an edge ends with a layout of the
whole map.  Between layouts only the pool changes, where calls that are shown
borrow labels and give them back.  So no box stands where an older map had it,
and no line ends where a row used to be.
-/

namespace CodeAtlas

variable {R : Type} [Scalar R]

namespace Engine

/-! ## Operations leave the map laid out -/

variable {layouter : Layouter R}

/-- A layout lays out every map that can be reached. -/
theorem Tracked.laid_relayout {engine : Engine R} (tracked : engine.Tracked)
    (uses : engine.layouter = layouter) (places : PlacesAll layouter) :
    engine.relayout.registry.Laid layouter := by
  have coherent := Registry.Reachable.coherent tracked
  have balanced := Registry.Reachable.balanced tracked
  subst uses
  unfold Engine.relayout
  dsimp only
  split
  · next noBoxes => exact coherent.laid_of_no_boxes (List.isEmpty_iff.mp noBoxes)
  · exact coherent.laid_of_layout balanced places

/-- Calls that go give back labels of their own. -/
theorem laid_leaveSequence {engine : Engine R} (laid : engine.registry.Laid layouter) :
    engine.leaveSequence.2.registry.Laid layouter := by
  unfold leaveSequence
  cases engine.mode with
  | graph => exact laid
  | sequence view => exact laid.of_pool (Pool.evolves_releaseAll _ _)

/-- Every operation leaves the map laid out. -/
theorem laid_apply {engine next : Engine R} (tracked : engine.Tracked)
    (uses : engine.layouter = layouter) (places : PlacesAll layouter)
    (laid : engine.registry.Laid layouter) {operation : Operation R}
    (applied : engine.apply operation = .ok next) : next.registry.Laid layouter := by
  have coherent := Registry.Reachable.coherent tracked
  have left := laid_leaveSequence laid
  have leftUses := (congrArg Prod.snd (setup_leaveSequence engine)).trans uses
  cases mapStep_of_apply coherent applied with
  | kept same =>
    rw [same.registry]
    exact laid
  | left same =>
    rw [same.registry]
    exact left
  | shown root built same =>
    -- Calls that come borrow new labels.
    have evolves := SequenceView.evolves_build built
    obtain ⟨pool, rfl, _⟩ := Registry.eq_of_build built
    rw [same.registry]
    exact left.of_pool evolves
  | emptied operation _ empty =>
    exact (Registry.Reachable.coherent (tracked.apply applied)).laid_of_no_boxes empty
  | relaid same =>
    rw [same.registry]
    exact tracked.laid_relayout uses places
  | replaced nodes links same =>
    rw [same.registry]
    exact (tracked.operate_left (.setData nodes links)).laid_relayout leftUses places
  | changed operation lends same =>
    rw [same.registry]
    exact (tracked.operate operation lends).leaveSequence.laid_relayout
      ((congrArg Prod.snd (setup_leaveSequence _)).trans uses) places

/-- What a run keeps: the way to lay out, and a map that is laid out. -/
theorem laid_run {start engine : Engine R} (tracked : start.Tracked)
    (places : PlacesAll start.layouter) (laid : start.registry.Laid start.layouter)
    {operations : List (Operation R)} (ran : start.run operations = .ok engine) :
    engine.registry.Laid start.layouter := by
  have kept : engine.Tracked ∧ engine.layouter = start.layouter ∧
      engine.registry.Laid start.layouter := by
    refine run_induction (motive := fun engine => engine.Tracked ∧
      engine.layouter = start.layouter ∧ engine.registry.Laid start.layouter)
      ⟨tracked, rfl, laid⟩ ?_ ran
    rintro before next operation _ ⟨trackedBefore, uses, laidBefore⟩ applied
    have coherent := Registry.Reachable.coherent trackedBefore
    exact ⟨trackedBefore.apply applied, (congrArg Prod.snd (setup_apply coherent applied)).trans uses,
      laid_apply trackedBefore uses places laidBefore applied⟩
  exact kept.2.2

/-- After every run of a new diagram with the tree layout, whatever its font:
every box has the position that the layout gives it for the map as it is now; the
layout gets one link for each edge, in the same order, with both ends lifted to
their boxes; and the line of every edge is live and joins the anchors of its ends
as they are now. -/
theorem placed_and_routed_after_run (config : EngineConfig R) (text : TextMetrics R)
    (viewport : Vec R) (operations : List (Operation R)) {engine : Engine R}
    (ran : (withLayouter config text (TreeLayouter.ofSettings config.layout).execute
      viewport).run operations = .ok engine) :
    let registry := engine.registry
    let positions := (TreeLayouter.ofSettings config.layout).execute registry.layoutNodes
      registry.layoutEdges
    (∀ node ∈ registry.classes.items, positions.get? node.id = some node.position) ∧
    (∀ node ∈ registry.standalone.items, positions.get? node.id = some node.position) ∧
    List.Forall₂ registry.Lifts registry.edges.items registry.layoutEdges ∧
    ∀ edge ∈ registry.edges.items, ∃ source target sourceBox targetBox geometry,
      registry.Anchored edge.source source sourceBox ∧
      registry.Anchored edge.target target targetBox ∧ edge.geometry = some geometry ∧
      registry.pool.shape? geometry =
        some (routeEdge source target (sourceBox == targetBox)) := by
  have tracked := reachable_of_run config _ _ viewport operations ran
  have start : (withLayouter config text (TreeLayouter.ofSettings config.layout).execute
      viewport).Tracked := Registry.Reachable.create _ _ _
  have laid := laid_run start
    (TreeLayouter.ofSettings config.layout).placesAll_execute
    (Registry.laid_of_empty rfl rfl rfl) ran
  refine ⟨laid.classes, laid.standalone, tracked.coherent.forall₂_layoutEdges, ?_⟩
  intro edge mem
  obtain ⟨source, target, sourceBox, targetBox, anchoredSource, anchoredTarget, route⟩ :=
    tracked.coherent.exists_route mem
  obtain ⟨points, geometry, routed, drawn, names⟩ := laid.routes edge mem
  obtain rfl := Option.some.inj (routed.symm.trans route)
  refine ⟨source, target, sourceBox, targetBox, geometry, anchoredSource, anchoredTarget, drawn, ?_⟩
  have owned : (geometry, ResourceKind.shape) ∈
      engine.registry.slots ++ Registry.lentTo engine.sequence? := by
    apply List.mem_append_left
    apply List.mem_append_right
    exact List.mem_flatMap.mpr ⟨edge, mem, Slot.mem_filled_iff.mpr ⟨drawn, rfl⟩⟩
  exact Pool.Holds.shape?_of_names tracked.balanced names owned

/-- Two packages. -/
def packageNodes : List Node :=
  [⟨"app", ["Package"], []⟩, ⟨"lib", ["Package"], []⟩]

/-- One package depends on the other. -/
def packageLinks : List Relationship :=
  [⟨"uses", "DEPENDS_ON", "app", "lib", []⟩]

theorem keys_packages :
    let reg :=
      ((sampleStart.setPerspective .architecture).2.setData packageNodes packageLinks).2.registry
    reg.standalone.keys = ["app", "lib"] ∧ reg.edges.keys = ["uses"] := by
  intro reg
  rw [← Registry.keys_bare_standalone, ← Registry.keys_bare_edges, bare_setData,
    Registry.keys_bare_standalone, Registry.keys_bare_edges]
  decide

theorem placed_and_routed_packages :
    ∃ engine node edge source target sourceBox targetBox geometry,
      sampleStart.run [.setPerspective .architecture, .setData packageNodes packageLinks] =
        .ok engine ∧
      node ∈ engine.registry.standalone.items ∧ node.id = "lib" ∧
      ((TreeLayouter.ofSettings EngineConfig.standard.layout).execute
        engine.registry.layoutNodes engine.registry.layoutEdges).get? node.id =
          some node.position ∧
      edge ∈ engine.registry.edges.items ∧ edge.id = "uses" ∧
      engine.registry.Anchored edge.source source sourceBox ∧
      engine.registry.Anchored edge.target target targetBox ∧ edge.geometry = some geometry ∧
      engine.registry.pool.shape? geometry =
        some (routeEdge source target (sourceBox == targetBox)) := by
  let engine := ((sampleStart.setPerspective .architecture).2.setData packageNodes packageLinks).2
  have ran : sampleStart.run [.setPerspective .architecture,
      .setData packageNodes packageLinks] = .ok engine := rfl
  have boxKnown : "lib" ∈ engine.registry.standalone.keys := by
    rw [keys_packages.1]
    decide
  have edgeKnown : "uses" ∈ engine.registry.edges.keys := by
    rw [keys_packages.2]
    decide
  obtain ⟨node, nodeMem, nodeId⟩ := Store.mem_keys_iff.mp boxKnown
  obtain ⟨edge, edgeMem, edgeId⟩ := Store.mem_keys_iff.mp edgeKnown
  obtain ⟨_, placed, _, routed⟩ := placed_and_routed_after_run .standard _ _ _ ran
  obtain ⟨source, target, sourceBox, targetBox, geometry, anchored⟩ := routed edge edgeMem
  exact ⟨engine, node, edge, source, target, sourceBox, targetBox, geometry, ran, nodeMem, nodeId,
    placed node nodeMem, edgeMem, edgeId, anchored⟩

end Engine

end CodeAtlas
