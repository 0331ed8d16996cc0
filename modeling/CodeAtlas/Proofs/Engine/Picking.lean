import CodeAtlas.Proofs.Engine.Reset
import CodeAtlas.Proofs.Picking

/-!
# A diagram is picked as it is drawn

Whatever led there, a diagram with the tree layout is arranged without overlap,
and right after new data its regions are those of the map as it stands.
-/

namespace CodeAtlas

namespace Engine

variable [Approximations]

/-- Every run leaves the map arranged, if no size and no gap is negative. -/
theorem arranged_of_run {config : EngineConfig ℚ} {text : TextMetrics ℚ} {viewport : Vec ℚ}
    {operations : List (Operation ℚ)} {engine : Engine ℚ}
    (ran : (withLayouter config text (TreeLayouter.ofSettings config.layout).execute viewport).run
      operations = .ok engine)
    (nonneg : config.node.Nonneg) (horizontal : 0 ≤ config.layout.horizontalGap)
    (vertical : 0 ≤ config.layout.verticalGap) : engine.registry.Arranged := by
  have start : (withLayouter config text (TreeLayouter.ofSettings config.layout).execute
      viewport).Tracked := Registry.Reachable.create _ _ _
  have reachable := reachable_of_run config _ _ viewport operations ran
  have laid := laid_run start (TreeLayouter.ofSettings config.layout).placesAll_execute
    (Registry.laid_of_empty rfl rfl rfl) ran
  exact reachable.coherent.arranged_of_laid reachable.fitted laid (metrics_of_run ran ▸ nonneg)
    horizontal vertical

/-- What is drawn is what is picked.  After new data, for every class on the map:
inside the drawn row of a visible method that row is picked; inside the header
the header is picked; and inside the box, but neither on the header nor on a
drawn row, the box is picked. -/
theorem drawn_is_picked (config : EngineConfig ℚ) (text : TextMetrics ℚ) (viewport : Vec ℚ)
    (nonneg : config.node.Nonneg) (horizontal : 0 ≤ config.layout.horizontalGap)
    (vertical : 0 ≤ config.layout.verticalGap) (operations : List (Operation ℚ))
    {engine : Engine ℚ}
    (ran : (withLayouter config text (TreeLayouter.ofSettings config.layout).execute viewport).run
      operations = .ok engine)
    (nodes : List Node) (relationships : List Relationship) :
    let next := (engine.setData nodes relationships).2
    let picked := fun point => (next.hitTester.hitTest point).map Hit.role
    ∀ node ∈ next.registry.classes.items,
      (∀ method ∈ next.registry.visibleMethods node.id, ∃ row,
        next.registry.methodRowRect method.id = some row ∧
        (∃ primitive ∈ next.scene.primitives, primitive.role = .methodRow node.id method.id ∧
          primitive.kind = .rect (Scene.insetRow row)) ∧
        ∀ point, (Scene.insetRow row).Inside point →
          picked point = some (.methodRow node.id method.id)) ∧
      ∃ header, next.registry.headerRect node.id = some header ∧
        (∀ point, header.Inside point → picked point = some (.classHeader node.id)) ∧
        ∀ point, node.rect.Inside point → header.contains point = false →
          (∀ method ∈ next.registry.visibleMethods node.id, ∀ row,
            next.registry.methodRowRect method.id = some row →
            (Scene.insetRow row).contains point = false) →
          picked point = some (.classBackground node.id) := by
  intro next picked node mem
  have arranged := arranged_of_run (run_setData ran nodes relationships) nonneg horizontal vertical
  obtain ⟨upToDate, graph⟩ := upToDate_setData engine nodes relationships
  have scene : next.scene = .ofRegistry next.registry := by
    rw [upToDate.scene, currentScene, graph]
  have pickedEq : ∀ point, picked point = next.registry.pickedAt point := by
    intro point
    simp only [picked, Registry.pickedAt]
    rw [← scene, ← upToDate.regions]
  refine ⟨?_, _, arranged.coherent.headerRect_eq mem, ?_, ?_⟩
  · intro method visible
    obtain ⟨index, listed, stands⟩ := arranged.coherent.exists_row mem visible
    refine ⟨_, stands, ?_, ?_⟩
    · rw [scene]
      exact Scene.exists_row_primitive mem visible stands
    · intro point inside
      rw [pickedEq]
      exact arranged.pickedAt_row mem listed stands inside
  · intro point inside
    rw [pickedEq]
    exact arranged.pickedAt_header mem inside
  · intro point inside offHeader offRows
    rw [pickedEq]
    refine arranged.pickedAt_background mem inside (Bool.eq_false_iff.mp offHeader) ?_
    intro method visible row stands
    exact Bool.eq_false_iff.mp (offRows method visible row stands)

omit [Approximations] in
/-- The method of a class that starts with all rows shown is visible. -/
theorem exists_row_sample {R : Type} [Scalar R] (viewport : Vec R) :
    let next := ((standardStart viewport).setData sampleNodes sampleClaims).2
    ∃ node ∈ next.registry.classes.items, ∃ method ∈ next.registry.visibleMethods node.id,
      node.id = "class" ∧ method.id = "method" := by
  intro next
  let start : Engine R := standardStart viewport
  have ran : start.run [] = .ok start := rfl
  have reachable := reachable_of_run .standard _ _ viewport _
    (run_setData ran sampleNodes sampleClaims)
  -- What the batch brings can be evaluated before boxes and rows are made.
  obtain ⟨bareClasses, bareMethods⟩ :=
    (Registry.coherent_clear start.registry).bare_addData rfl sampleNodes sampleClaims
  have classes : next.registry.bare.classes.items.map (fun node =>
      (node.id, node.toggles, node.focusedMethod)) = [("class", {}, none)] := by
    rw [bare_setData]
    exact (congrArg _ (congrArg Store.items bareClasses)).trans rfl
  have methods : next.registry.bare.methods.items.map (fun method =>
      (method.id, method.classId)) = [("method", "class")] := by
    rw [bare_setData]
    exact (congrArg _ (congrArg Store.items bareMethods)).trans rfl
  rw [Registry.bare, List.map_map, List.map_eq_singleton_iff] at classes methods
  obtain ⟨node, classesEq, nodeEq⟩ := classes
  obtain ⟨method, methodsEq, methodEq⟩ := methods
  have nodeId : node.id = "class" := congrArg (fun view => view.1) nodeEq
  have toggles : node.toggles = {} := congrArg (fun view => view.2.1) nodeEq
  have focus : node.focusedMethod = none := congrArg (fun view => view.2.2) nodeEq
  have owned : method.classId = node.id := (congrArg Prod.snd methodEq).trans nodeId.symm
  have mem : node ∈ next.registry.classes.items := classesEq ▸ List.mem_singleton_self node
  have methodMem : method ∈ next.registry.methods.items :=
    methodsEq ▸ List.mem_singleton_self method
  have visible : method.visible = true := by
    rw [reachable.settled.rows node mem List.not_mem_nil method methodMem owned, toggles, focus]
    simp [Method.isShown]
  have listed : method ∈ next.registry.visibleMethods node.id :=
    List.mem_filter.mpr ⟨reachable.coherent.mem_methodsOf_iff.mpr ⟨methodMem, owned⟩, visible⟩
  exact ⟨node, mem, method, listed, nodeId, congrArg Prod.fst methodEq⟩

omit [Approximations] in
/-- A class with a method: the row is picked in its middle. -/
theorem drawn_is_picked_sample :
    letI : Approximations := .sample
    let next := ((standardStart ⟨800, 600⟩ : Engine ℚ).setData sampleNodes sampleClaims).2
    ∃ row, next.registry.methodRowRect "method" = some row ∧
      (Scene.insetRow row).Inside row.center ∧
      (next.hitTester.hitTest row.center).map Hit.role = some (.methodRow "class" "method") := by
  let _ : Approximations := .sample
  intro next
  have nonneg : NodeMetrics.Nonneg (.standard : NodeMetrics ℚ) :=
    ⟨by decide +kernel, by decide +kernel, by decide +kernel⟩
  have horizontal : 0 ≤ (.standard : LayoutSettings ℚ).horizontalGap := by decide +kernel
  have vertical : 0 ≤ (.standard : LayoutSettings ℚ).verticalGap := by decide +kernel
  let start : Engine ℚ := standardStart ⟨800, 600⟩
  have ran : start.run [] = .ok start := rfl
  have arranged := arranged_of_run (run_setData ran sampleNodes sampleClaims) nonneg horizontal
    vertical
  have metrics : next.registry.metrics = .standard :=
    metrics_of_run (run_setData ran sampleNodes sampleClaims)
  obtain ⟨node, mem, method, listed, nodeId, methodId⟩ := exists_row_sample (⟨800, 600⟩ : Vec ℚ)
  obtain ⟨index, _, stands⟩ := arranged.coherent.exists_row mem listed
  have inside := arranged.inside_center_row mem (by rw [metrics]; decide +kernel)
    (by rw [metrics]; decide +kernel) index
  have picked := drawn_is_picked .standard _ ⟨800, 600⟩ nonneg horizontal vertical [] ran
    sampleNodes sampleClaims node mem
  obtain ⟨row, rowStands, _, role⟩ := picked.1 method listed
  obtain rfl := Option.some.inj (stands.symm.trans rowStands)
  exact ⟨_, methodId ▸ stands, inside, nodeId ▸ methodId ▸ role _ inside⟩

end Engine

end CodeAtlas
