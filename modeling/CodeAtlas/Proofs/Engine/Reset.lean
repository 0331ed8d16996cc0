import CodeAtlas.Proofs.Engine.History
import CodeAtlas.Proofs.Engine.Placement
import CodeAtlas.Proofs.Registry.Batch
import CodeAtlas.Proofs.Renumber.Scene

/-!
# New data erase history

What a diagram is made with never changes: settings, the way to lay out, and how
texts are measured.  All else is set anew when everything is replaced by a batch,
but for the number that was given out last.  So two diagrams that are made alike,
show the same perspective in the same viewport and are given the same data look
alike from then on, up to a shift of the numbers of their resources.
-/

namespace CodeAtlas

variable {R : Type} [Scalar R] {reg : Registry R} {engine next : Engine R}

/-- Where a camera looks after it is fitted, and how closely, does not depend on
where it looked before. -/
theorem Camera.fit_congr {camera other : Camera R} (sized : other.viewport = camera.viewport)
    (content : Rect R) (margin : R) : other.fit content margin = camera.fit content margin := by
  simp only [Camera.fit, Camera.centered, sized]

theorem Camera.viewport_fit (camera : Camera R) (content : Rect R) (margin : R) :
    (camera.fit content margin).viewport = camera.viewport := by
  unfold Camera.fit
  dsimp only
  split <;> rfl

namespace Registry

/-! ## What a registry is made with -/

theorem setup_of_bare_eq {reg other : Registry R} (same : other.bare = reg.bare) :
    other.setup = reg.setup := by
  change other.bare.setup = reg.bare.setup
  rw [same]

theorem setup_refreshClass (reg : Registry R) (classId : NodeId) :
    (reg.refreshClass classId).setup = reg.setup := by
  unfold refreshClass
  split <;> rfl

theorem Coherent.setup_addData (coherent : reg.Coherent) (nodes : List Node)
    (links : List Relationship) :
    (reg.addData nodes links).2.setup = reg.setup :=
  congrArg Prod.snd (coherent.frame_addData nodes links)

theorem setup_deleteNode (reg : Registry R) (id : NodeId) :
    (reg.deleteNode id).2.setup = reg.setup := by
  rcases reg.deleteNode_cases id with ⟨node, _, deleted⟩ | ⟨method, _, _, deleted⟩ |
      ⟨node, _, _, _, deleted⟩ | ⟨_, same⟩
  · rw [deleted]
    rfl
  · rw [deleted, deleteMethod_eq]
    exact setup_refreshClass _ _
  · rw [deleted]
    rfl
  · rw [same]

theorem setup_rowsChange {result : Bool × Registry R}
    (change : reg.RowsChange result) : result.2.setup = reg.setup := by
  rcases change with rfl | ⟨classId, toggles, focus, _, rfl⟩
  · rfl
  · exact setup_refreshClass _ _

theorem Coherent.setup_apply (coherent : reg.Coherent)
    (operation : Operation R) : (reg.apply operation).setup = reg.setup := by
  by_cases rows : operation.isRows = true
  · rcases coherent.rowsChange_apply rows with ⟨_, change⟩
    exact setup_rowsChange change
  cases operation with
  | setPerspective perspective =>
    unfold Registry.apply Registry.setPerspective
    dsimp only
    split <;> rfl
  | setData nodes links => exact (coherent_clear reg).setup_addData nodes links
  | addData nodes links => exact coherent.setup_addData nodes links
  | deleteNode id => exact reg.setup_deleteNode id
  | clear => rfl
  | focusOnClass classId =>
    exact (coherent.focusOnClass_induction classId
      (motive := fun left => left.setup = reg.setup) rfl rfl
      fun left _ same id _ => (left.setup_deleteNode id).trans same).2
  | applyPositions positions => exact setup_of_bare_eq (bare_applyPositions reg positions)
  | updateEdgeGeometry => rfl
  | _ => exact absurd rfl rows

/-! ## Blank maps -/

/-- A map with nothing on it that has given out no numbers. -/
def blank (reg : Registry R) : Registry R :=
  { reg.clear with pool := {} }

theorem coherent_blank (reg : Registry R) : reg.blank.Coherent :=
  (coherent_clear reg).of_bare_eq rfl

omit [Scalar R] in
/-- Blank maps that are made alike are alike. -/
theorem blank_eq {reg other : Registry R} (setup : other.setup = reg.setup)
    (perspective : other.perspective = reg.perspective) : other.blank = reg.blank := by
  simp only [Registry.setup, Prod.mk.injEq] at setup
  obtain ⟨text, metrics, toggles⟩ := setup
  simp only [blank, clear, text, metrics, toggles, perspective]

omit [Scalar R] in
/-- Of a map that is cleared only the last number is left. -/
theorem clear_eq_renumber (reg : Registry R) :
    reg.clear = reg.blank.renumber (reg.pool.lastId + ·) :=
  rfl

/-- New data come as they come on a blank map. -/
theorem setData_eq_renumber (reg : Registry R) (nodes : List Node) (links : List Relationship) :
    reg.setData nodes links =
      ((reg.blank.addData nodes links).1,
        (reg.blank.addData nodes links).2.renumber (reg.pool.lastId + ·)) := by
  rw [setData, clear_eq_renumber]
  exact addData_renumber (shifts_add _) reg.blank nodes links

/-- The map after its boxes are placed and its edges are routed. -/
def laidOut (layouter : Layouter R) (reg : Registry R) : Registry R :=
  if reg.layoutNodes.isEmpty then reg
  else (reg.applyPositions (layouter reg.layoutNodes reg.layoutEdges)).updateEdgeGeometry

theorem bare_laidOut (layouter : Layouter R) (reg : Registry R) :
    (reg.laidOut layouter).bare = reg.bare := by
  unfold laidOut
  split
  · rfl
  · rw [bare_updateEdgeGeometry, bare_applyPositions]

theorem laidOut_renumber {f : ResourceId → ResourceId} (shifts : Shifts f)
    (layouter : Layouter R) (reg : Registry R) :
    (reg.renumber f).laidOut layouter = (reg.laidOut layouter).renumber f := by
  unfold laidOut
  rw [layoutNodes_renumber, layoutEdges_renumber, applyPositions_renumber,
    updateEdgeGeometry_renumber _ shifts]
  split <;> rfl

/-- Where nothing has a box, nothing is drawn. -/
theorem Coherent.scene_eq_nil (coherent : reg.Coherent)
    (boundless : reg.bounds = none) : (Scene.ofRegistry reg).primitives = [] := by
  have boxes : reg.classes.items.map ClassNode.rect ++
      reg.standalone.items.map StandaloneNode.rect = [] := by
    unfold bounds Rect.unionAll at boundless
    split at boundless
    · next empty => exact empty
    · cases boundless
  obtain ⟨noClasses, noStandalone⟩ := List.append_eq_nil_iff.mp boxes
  rw [List.map_eq_nil_iff] at noClasses noStandalone
  have noMethods : reg.methods.items = [] := by
    apply List.eq_nil_iff_forall_not_mem.mpr
    intro method mem
    obtain ⟨owner, ownerMem, _⟩ := coherent.owner method mem
    rw [noClasses] at ownerMem
    cases ownerMem
  have noEdges : reg.edges.items = [] := by
    apply List.eq_nil_iff_forall_not_mem.mpr
    intro edge mem
    obtain ⟨source, _⟩ := coherent.ends edge mem
    simp [containsNode_iff, Store.keys, noClasses, noStandalone, noMethods] at source
  simp [Scene.ofRegistry, noClasses, noStandalone, noEdges]

end Registry

theorem Scene.isEmpty_eq_false_of_standalone {id : NodeId}
    (known : id ∈ reg.standalone.keys) : (Scene.ofRegistry reg).isEmpty = false := by
  obtain ⟨node, mem, _⟩ := Store.mem_keys_iff.mp known
  obtain ⟨before, after, items⟩ := List.append_of_mem mem
  simp [Scene.isEmpty, Scene.ofRegistry, items, Scene.standalone]

namespace Engine

/-! ## What a diagram is made with -/

theorem registrySetup_apply (coherent : engine.registry.Coherent) {operation : Operation R}
    (applied : engine.apply operation = .ok next) :
    next.registry.setup = engine.registry.setup := by
  have left : engine.leaveSequence.2.registry.setup = engine.registry.setup :=
    Registry.setup_of_bare_eq (bare_leaveSequence engine)
  have leftCoherent : engine.leaveSequence.2.registry.Coherent :=
    coherent.of_bare_eq (bare_leaveSequence engine)
  cases mapStep_of_apply coherent applied with
  | kept same => rw [same.registry]
  | left same =>
    rw [same.registry]
    exact left
  | shown root built same =>
    obtain ⟨pool, rfl, _⟩ := Registry.eq_of_build built
    rw [same.registry]
    exact left
  | emptied operation same _ =>
    rw [same.registry]
    exact (leftCoherent.setup_apply operation).trans left
  | relaid same =>
    rw [same.registry]
    exact Registry.setup_of_bare_eq (bare_relayout engine)
  | replaced nodes links same =>
    rw [same.registry]
    exact (Registry.setup_of_bare_eq (bare_relayout _)).trans
      ((leftCoherent.setup_apply (.setData nodes links)).trans left)
  | changed operation _ same =>
    let changed : Engine R := { engine with registry := engine.registry.apply operation }
    have leaving := Registry.setup_of_bare_eq (bare_leaveSequence changed)
    rw [same.registry]
    exact (Registry.setup_of_bare_eq (bare_relayout changed.leaveSequence.2)).trans
      (leaving.trans (coherent.setup_apply operation))

/-- A diagram is made once and for all. -/
theorem made_of_run {config : EngineConfig R} {text : TextMetrics R} {layouter : Layouter R}
    {viewport : Vec R} {operations : List (Operation R)} {engine : Engine R}
    (ran : (withLayouter config text layouter viewport).run operations = .ok engine) :
    engine.setup = (config, layouter) ∧
      engine.registry.setup = (text, config.node, config.members) := by
  have start := sound_withLayouter config text layouter viewport
  have kept : engine.Sound ∧ engine.setup = (config, layouter) ∧
      engine.registry.setup = (text, config.node, config.members) := by
    apply run_induction (motive := fun reached => reached.Sound ∧
      reached.setup = (config, layouter) ∧
      reached.registry.setup = (text, config.node, config.members)) ⟨start, rfl, rfl⟩ _ ran
    rintro before next operation _ ⟨sound, made, registryMade⟩ applied
    exact ⟨sound.apply applied, (setup_apply sound.coherent applied).trans made,
      (registrySetup_apply sound.coherent applied).trans registryMade⟩
  exact kept.2

theorem metrics_of_run {config : EngineConfig R} {text : TextMetrics R} {layouter : Layouter R}
    {viewport : Vec R} {operations : List (Operation R)} {engine : Engine R}
    (ran : (withLayouter config text layouter viewport).run operations = .ok engine) :
    engine.registry.metrics = config.node :=
  congrArg (fun setup => setup.2.1) (made_of_run ran).2

/-! ## New data -/

theorem relayout_eq_laidOut (engine : Engine R) :
    engine.relayout =
      { engine with registry := engine.registry.laidOut engine.layouter }.rebuildScene := by
  unfold relayout Registry.laidOut
  dsimp only
  split <;> rfl

section
omit [Scalar R]

theorem lastId_leaveSequence (engine : Engine R) :
    engine.leaveSequence.2.registry.pool.lastId = engine.pool.lastId := by
  unfold leaveSequence
  cases engine.mode with
  | graph => rfl
  | sequence view =>
    exact List.foldlRecOn
      (motive := fun (pool : Pool R) => pool.lastId = engine.registry.pool.lastId) _ Pool.release
      rfl fun _ same _ _ => same

theorem blank_leaveSequence (engine : Engine R) :
    engine.leaveSequence.2.registry.blank = engine.registry.blank := by
  unfold leaveSequence
  cases engine.mode <;> rfl

theorem camera_leaveSequence (engine : Engine R) :
    engine.leaveSequence.2.camera = engine.camera := by
  unfold leaveSequence
  cases engine.mode <;> rfl

end

/-- The map that a batch makes out of a blank one. -/
def fromBlank (engine : Engine R) (nodes : List Node) (links : List Relationship) :
    Registry R :=
  (engine.registry.blank.addData nodes links).2.laidOut engine.layouter

theorem coherent_fromBlank (engine : Engine R) (nodes : List Node)
    (links : List Relationship) : (engine.fromBlank nodes links).Coherent :=
  (engine.registry.coherent_blank.addData nodes links).of_bare_eq
    (Registry.bare_laidOut _ _)

/-- The diagram shows a map and nothing else, with the numbers of all resources
counted on from the given one. -/
structure Shows (engine : Engine R) (map : Registry R) (count : Nat) : Prop where
  registry : engine.registry = map.renumber (count + ·)
  scene : engine.scene = (Scene.ofRegistry map).renumber (count + ·)
  hitTester : engine.hitTester = ⟨(Scene.ofRegistry map).hitRegions⟩
  interaction : engine.interaction = {}
  mode : engine.mode = .graph

section

variable (engine) (nodes : List Node) (links : List Relationship)

/-- The view is made anew; of what was before only the camera counts. -/
theorem setData_eq_fromBlank :
    (engine.setData nodes links).2 =
      ({ engine.leaveSequence.2 with
        registry := (engine.fromBlank nodes links).renumber (engine.pool.lastId + ·)
        interaction := {} }.rebuildScene).fitToContent.2 := by
  have layouter : engine.leaveSequence.2.layouter = engine.layouter :=
    congrArg Prod.snd (setup_leaveSequence engine)
  have placed : (engine.leaveSequence.2.registry.setData nodes links).2.laidOut
      engine.layouter =
        (engine.fromBlank nodes links).renumber (engine.pool.lastId + ·) := by
    rw [Registry.setData_eq_renumber, lastId_leaveSequence, blank_leaveSequence]
    exact Registry.laidOut_renumber (shifts_add _) _ _
  unfold setData
  dsimp only
  rw [relayout_eq_laidOut]
  dsimp only
  rw [layouter, placed]

theorem report_setData :
    (engine.setData nodes links).1 =
      (engine.registry.blank.addData nodes links).1 := by
  unfold setData
  dsimp only
  rw [Registry.setData_eq_renumber, blank_leaveSequence]

theorem shows_setData :
    (engine.setData nodes links).2.Shows (engine.fromBlank nodes links)
      engine.pool.lastId := by
  have graph := mode_leaveSequence engine
  rw [setData_eq_fromBlank]
  have fitted := sameView_fitToContent ({ engine.leaveSequence.2 with
    registry := (engine.fromBlank nodes links).renumber (engine.pool.lastId + ·)
    interaction := {} }.rebuildScene)
  have drawn := Scene.ofRegistry_renumber (engine.fromBlank nodes links)
    (shifts_add engine.pool.lastId)
  constructor
  · exact fitted.registry
  · rw [fitted.scene]
    simp only [rebuildScene, currentScene, graph, drawn]
  · rw [fitted.hitTester]
    simp only [rebuildScene, currentScene, graph, drawn, Scene.hitRegions_renumber]
  · rw [interaction_fitToContent]
    rfl
  · exact fitted.mode.trans graph

end

theorem Shows.scene_eq {map : Registry R} {count : Nat}
    (shows : engine.Shows map count) : engine.scene = .ofRegistry engine.registry := by
  rw [shows.scene, shows.registry, Scene.ofRegistry_renumber map (shifts_add count)]

/-- Placing and routing give no numbers back. -/
theorem lastId_le_setData (engine : Engine R) (nodes : List Node) (links : List Relationship) :
    (engine.leaveSequence.2.registry.setData nodes links).2.pool.lastId ≤
      (engine.setData nodes links).2.pool.lastId := by
  have relaid := becomes_relayout { engine.leaveSequence.2 with
    registry := (engine.leaveSequence.2.registry.setData nodes links).2
    interaction := {} }
  have fitted := sameView_fitToContent ({ engine.leaveSequence.2 with
    registry := (engine.leaveSequence.2.registry.setData nodes links).2
    interaction := {} }.relayout)
  unfold setData pool
  dsimp only
  rw [fitted.registry]
  exact relaid.numbers

/-- The camera is fitted to the new map, if there is anything on it. -/
theorem camera_setData {nodes : List Node} {links : List Relationship} {content : Rect R}
    (bounded : (engine.fromBlank nodes links).bounds = some content) :
    (engine.setData nodes links).2.camera =
      engine.camera.fit content engine.config.camera.fitMargin := by
  have graph := mode_leaveSequence engine
  have config : engine.leaveSequence.2.config = engine.config :=
    congrArg Prod.fst (setup_leaveSequence engine)
  rw [setData_eq_fromBlank]
  simp only [fitToContent, contentBounds, rebuildScene, graph, Registry.bounds_renumber, bounded,
    camera_leaveSequence, config]

theorem perspective_setData (engine : Engine R) (nodes : List Node) (links : List Relationship) :
    (engine.setData nodes links).2.registry.perspective =
      engine.registry.perspective := by
  have left : engine.leaveSequence.2.registry.bare.perspective =
      engine.registry.bare.perspective := by
    rw [bare_leaveSequence]
  change (engine.setData nodes links).2.registry.bare.perspective = _
  rw [bare_setData]
  exact ((Registry.coherent_clear _).perspective_addData nodes links).trans left

theorem viewport_setData (engine : Engine R) (nodes : List Node) (links : List Relationship) :
    (engine.setData nodes links).2.camera.viewport = engine.camera.viewport := by
  rw [setData_eq_fromBlank, ← camera_leaveSequence engine]
  unfold fitToContent
  split
  · rfl
  · exact Camera.viewport_fit _ _ _

/-- Batches make the same map in diagrams that are made alike. -/
theorem fromBlank_eq {engine other : Engine R} (setup : other.setup = engine.setup)
    (reg : other.registry.setup = engine.registry.setup)
    (perspective : other.registry.perspective = engine.registry.perspective)
    (nodes : List Node) (links : List Relationship) :
    other.fromBlank nodes links = engine.fromBlank nodes links := by
  have layouter : other.layouter = engine.layouter := congrArg Prod.snd setup
  rw [fromBlank, fromBlank, layouter, Registry.blank_eq reg perspective]

/-- **New data erase history.**  Two diagrams of one make may have gone through
anything.  If they show one perspective in viewports of one size, then the same
data bring the same report and the same map in both.  Resources are numbered from
where each of them had come, which is all that tells them apart; and where
anything is drawn, both cameras see it alike. -/
theorem setData_erases_history (config : EngineConfig R) (text : TextMetrics R)
    (layouter : Layouter R) (viewport otherViewport : Vec R)
    (operations otherOperations : List (Operation R)) {engine other : Engine R}
    (ran : (withLayouter config text layouter viewport).run operations = .ok engine)
    (otherRan :
      (withLayouter config text layouter otherViewport).run otherOperations = .ok other)
    (perspective : other.registry.perspective = engine.registry.perspective)
    (sized : other.camera.viewport = engine.camera.viewport)
    (nodes : List Node) (relationships : List Relationship) :
    let result := engine.setData nodes relationships
    let otherResult := other.setData nodes relationships
    otherResult.1 = result.1 ∧
      (∃ map, result.2.Shows map engine.pool.lastId ∧
        otherResult.2.Shows map other.pool.lastId) ∧
      (result.2.scene.isEmpty = false → otherResult.2.camera = result.2.camera) := by
  intro result otherResult
  obtain ⟨setup, registrySetup⟩ := made_of_run ran
  obtain ⟨otherSetup, otherRegistrySetup⟩ := made_of_run otherRan
  have madeAlike : other.setup = engine.setup := otherSetup.trans setup.symm
  have registryAlike : other.registry.setup = engine.registry.setup :=
    otherRegistrySetup.trans registrySetup.symm
  have mapAlike := fromBlank_eq madeAlike registryAlike perspective nodes relationships
  have shown := engine.shows_setData nodes relationships
  have otherShown := other.shows_setData nodes relationships
  rw [mapAlike] at otherShown
  refine ⟨?_, ⟨_, shown, otherShown⟩, ?_⟩
  · exact (other.report_setData nodes relationships).trans
      (Registry.blank_eq registryAlike perspective ▸
        (engine.report_setData nodes relationships).symm)
  · intro drawn
    cases bounded : (engine.fromBlank nodes relationships).bounds with
    | none =>
      have nothing := (engine.coherent_fromBlank nodes relationships).scene_eq_nil bounded
      rw [shown.scene] at drawn
      simp [Scene.isEmpty, Scene.renumber, nothing] at drawn
    | some content =>
      have margin : other.config = engine.config := congrArg Prod.fst madeAlike
      rw [camera_setData bounded, camera_setData (mapAlike ▸ bounded), margin]
      exact Camera.fit_congr sized content _

theorem setData_erases_packages :
    ∃ engine other,
      sampleStart.run [.setPerspective .architecture] = .ok engine ∧
      sampleStart.run [.setPerspective .architecture, .setData packageNodes packageLinks] =
        .ok other ∧
      engine.pool.lastId < other.pool.lastId ∧
      (other.setData packageNodes packageLinks).1 = (engine.setData packageNodes packageLinks).1 ∧
      (∃ map, (engine.setData packageNodes packageLinks).2.Shows map engine.pool.lastId ∧
        (other.setData packageNodes packageLinks).2.Shows map other.pool.lastId) ∧
      (engine.setData packageNodes packageLinks).2.scene.isEmpty = false ∧
      (other.setData packageNodes packageLinks).2.camera =
        (engine.setData packageNodes packageLinks).2.camera := by
  -- The first diagram is named by an equation, so that only what is asked is evaluated.
  obtain ⟨engine, made⟩ : ∃ engine, engine = (sampleStart.setPerspective .architecture).2 :=
    ⟨_, rfl⟩
  obtain ⟨other, filled⟩ : ∃ other, other = (engine.setData packageNodes packageLinks).2 :=
    ⟨_, rfl⟩
  have ran : sampleStart.run [.setPerspective .architecture] = .ok engine := by
    rw [made]
    rfl
  have otherRan : sampleStart.run [.setPerspective .architecture,
      .setData packageNodes packageLinks] = .ok other := by
    rw [filled, made]
    rfl
  have numbers : engine.pool.lastId < other.pool.lastId := by
    have more : engine.pool.lastId <
        (engine.leaveSequence.2.registry.setData packageNodes packageLinks).2.pool.lastId := by
      rw [made]
      decide
    rw [filled]
    exact Nat.lt_of_lt_of_le more (engine.lastId_le_setData packageNodes packageLinks)
  have perspective : other.registry.perspective = engine.registry.perspective := by
    rw [filled, perspective_setData]
  have sized : other.camera.viewport = engine.camera.viewport := by
    rw [filled, viewport_setData]
  have drawn : (engine.setData packageNodes packageLinks).2.scene.isEmpty = false := by
    rw [(engine.shows_setData packageNodes packageLinks).scene_eq]
    have box : "app" ∈ (engine.setData packageNodes packageLinks).2.registry.standalone.keys := by
      rw [made, keys_packages.1]
      decide
    exact Scene.isEmpty_eq_false_of_standalone box
  obtain ⟨report, shown, camera⟩ := setData_erases_history .standard _ _ ⟨800, 600⟩ ⟨800, 600⟩ _ _
    ran otherRan perspective sized packageNodes packageLinks
  exact ⟨engine, other, ran, otherRan, numbers, report, shown, drawn, camera drawn⟩

end Engine

end CodeAtlas
