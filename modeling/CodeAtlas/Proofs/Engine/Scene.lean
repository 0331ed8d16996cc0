import CodeAtlas.Proofs.Engine.Resources
import CodeAtlas.Proofs.Scene

/-!
# When the scene is up to date

Scene and hit tester are built anew by every operation that changes what there
is to show, with one exception: a call diagram is given up for the calls of an
unknown method.  The scene of the old diagram then stays, and its labels are
dead, until the next operation that builds a scene.
-/

namespace CodeAtlas

variable {R : Type} [Scalar R] {engine next : Engine R}

namespace Engine

variable {operation : Operation R}

/-- Scene and hit tester are those of what is shown. -/
structure UpToDate (engine : Engine R) : Prop where
  scene : engine.scene = engine.currentScene
  regions : engine.hitTester.regions = engine.scene.hitRegions

theorem upToDate_rebuildScene (engine : Engine R) : engine.rebuildScene.UpToDate :=
  ⟨rfl, rfl⟩

theorem upToDate_relayout (engine : Engine R) : engine.relayout.UpToDate :=
  upToDate_rebuildScene _

theorem UpToDate.of_sameView (upToDate : engine.UpToDate)
    (same : next.SameView engine) : next.UpToDate := by
  constructor
  · rw [currentScene, same.scene, same.mode, same.registry]
    exact upToDate.scene
  · rw [same.hitTester, same.scene]
    exact upToDate.regions

theorem UpToDate.fitToContent (upToDate : engine.UpToDate) :
    engine.fitToContent.2.UpToDate :=
  upToDate.of_sameView (sameView_fitToContent engine)

theorem mode_fitToContent (engine : Engine R) : engine.fitToContent.2.mode = engine.mode :=
  (sameView_fitToContent engine).mode

/-! ## What an operation does to the scene -/

/-- An operation reports no change and does nothing, or it reports one and shows
the map anew. -/
def RedrawsMap (engine : Engine R) (changed : Bool) (next : Engine R) : Prop :=
  (changed = false ∧ next = engine) ∨
    (changed = true ∧ next.UpToDate ∧ next.mode = .graph)

/-- New data are shown at once. -/
theorem upToDate_setData (engine : Engine R) (nodes : List Node) (links : List Relationship) :
    (engine.setData nodes links).2.UpToDate ∧
      (engine.setData nodes links).2.mode = .graph :=
  ⟨(upToDate_relayout _).fitToContent,
    (mode_fitToContent _).trans ((mode_relayout _).trans (mode_leaveSequence engine))⟩

theorem redrawsMap_setPerspective (engine : Engine R) (perspective : Perspective) :
    engine.RedrawsMap (engine.setPerspective perspective).1
      (engine.setPerspective perspective).2 := by
  unfold setPerspective
  split
  · exact Or.inl ⟨rfl, rfl⟩
  · exact Or.inr ⟨rfl, ⟨rfl, rfl⟩, mode_leaveSequence engine⟩

theorem redrawsMap_addData (coherent : engine.registry.Coherent) (nodes : List Node)
    (links : List Relationship) :
    engine.RedrawsMap (engine.addData nodes links).1.changed
      (engine.addData nodes links).2 := by
  unfold addData
  dsimp only
  split
  · next changed =>
      exact Or.inr ⟨changed, upToDate_relayout _, (mode_relayout _).trans (mode_leaveSequence _)⟩
  · next unchanged =>
      have noChange := Bool.eq_false_iff.mpr unchanged
      refine Or.inl ⟨noChange, ?_⟩
      rw [coherent.addData_of_not_changed noChange]

theorem redrawsMap_deleteNode (engine : Engine R) (id : NodeId) :
    engine.RedrawsMap (engine.deleteNode id).1 (engine.deleteNode id).2 := by
  unfold deleteNode
  dsimp only
  rcases result : engine.registry.deleteNode id with ⟨found, reg⟩
  cases found with
  | false =>
    cases Registry.deleteNode_eq_of_false result
    exact Or.inl ⟨rfl, rfl⟩
  | true =>
    exact Or.inr ⟨rfl, upToDate_relayout _, (mode_relayout _).trans (mode_leaveSequence _)⟩

theorem redrawsMap_focusOnClass (engine : Engine R) (classId : NodeId) :
    engine.RedrawsMap (engine.focusOnClass classId).1 (engine.focusOnClass classId).2 := by
  unfold focusOnClass Registry.focusOnClass
  by_cases known : engine.registry.classes.contains classId = true
  · rw [if_pos known]
    exact Or.inr ⟨rfl, (upToDate_relayout _).fitToContent,
      (mode_fitToContent _).trans ((mode_relayout _).trans (mode_leaveSequence _))⟩
  · rw [if_neg known]
    exact Or.inl ⟨rfl, rfl⟩

theorem redrawsMap_withRows {change : Bool × Registry R}
    (rows : engine.registry.RowsChange change) :
    engine.RedrawsMap (engine.withRows change).1 (engine.withRows change).2 := by
  rcases rows with rfl | ⟨classId, toggles, focus, _, rfl⟩
  · exact Or.inl ⟨rfl, rfl⟩
  · exact Or.inr ⟨rfl, upToDate_relayout _, (mode_relayout _).trans (mode_leaveSequence _)⟩

theorem redrawsMap_exitSequence (engine : Engine R) :
    engine.RedrawsMap engine.exitSequence.1 engine.exitSequence.2 := by
  unfold exitSequence leaveSequence
  cases mode : engine.mode with
  | graph => exact Or.inl ⟨rfl, rfl⟩
  | sequence view =>
    exact Or.inr ⟨rfl, (upToDate_rebuildScene _).fitToContent, mode_fitToContent _⟩

/-- Whether an operation builds the scene anew. -/
def refreshes (engine : Engine R) : Operation R → Bool
  | .setPerspective perspective => (engine.setPerspective perspective).1
  | .addData nodes links => (engine.addData nodes links).1.changed
  | .deleteNode id => (engine.deleteNode id).1
  | .focusOnClass classId => (engine.focusOnClass classId).1
  | .setToggle classId toggle enabled => (engine.setToggle classId toggle enabled).1
  | .flipToggle classId toggle => (engine.flipToggle classId toggle).1
  | .focusMethod methodId => (engine.focusMethod methodId).1
  | .restoreMethods classId => (engine.restoreMethods classId).1
  | .showSequence root => (engine.showSequence root).1
  | .exitSequence => engine.exitSequence.1
  | .setData _ _ | .clear | .relayout => true
  | .fitToContent | .resize _ _ | .pointerDown _ _ | .pointerMove _ | .pointerUp _ _
  | .pointerLeave | .wheel _ _ => false

/-- A call diagram is given up for the calls of an unknown method. -/
def Abandons (engine : Engine R) (operation : Operation R) : Prop :=
  ∃ root, operation = .showSequence root ∧ engine.isSequence = true ∧
    root ∉ engine.registry.methods.keys

/-- A call diagram has lanes, and they stand for classes on the map. -/
def Laned (engine : Engine R) : Prop :=
  ∀ view, engine.mode = .sequence view →
    view.lanes ≠ [] ∧ ∀ lane ∈ view.lanes, lane.classId ∈ engine.registry.classes.keys

omit [Scalar R] in
theorem laned_of_graph (mode : engine.mode = .graph) : engine.Laned := by
  intro view shown
  rw [mode] at shown
  cases shown

omit [Scalar R] in
theorem Laned.of_keys (laned : engine.Laned) (mode : next.mode = engine.mode)
    (keys : next.registry.classes.keys = engine.registry.classes.keys) : next.Laned := by
  intro view shown
  rw [keys]
  exact laned view (mode ▸ shown)

theorem keys_classes_relayout (engine : Engine R) :
    engine.relayout.registry.classes.keys = engine.registry.classes.keys := by
  rw [← Registry.keys_bare_classes, bare_relayout, Registry.keys_bare_classes]

/-- Leaving a call diagram touches nothing on the map. -/
theorem bare_leaveSequence (engine : Engine R) :
    engine.leaveSequence.2.registry.bare = engine.registry.bare := by
  unfold leaveSequence
  cases engine.mode <;> rfl

/-- A changed registry is laid out once a call diagram is left. -/
theorem bare_revised (engine : Engine R) (reg : Registry R) (interaction : Interaction) :
    { { engine with registry := reg }.leaveSequence.2 with interaction }.relayout.registry.bare =
      reg.bare :=
  (bare_relayout _).trans (bare_leaveSequence { engine with registry := reg })

theorem bare_withRows (engine : Engine R) (change : Bool × Registry R) :
    (engine.withRows change).2.registry.bare = change.2.bare := by
  rcases change with ⟨changed, reg⟩
  cases changed with
  | false => rfl
  | true => exact bare_revised engine reg _

theorem keys_methods_leaveSequence (engine : Engine R) :
    engine.leaveSequence.2.registry.methods.keys = engine.registry.methods.keys := by
  rw [← Registry.keys_bare_methods, bare_leaveSequence, Registry.keys_bare_methods]

/-- Calls are shown exactly for methods on the map; else a call diagram that is
shown is given up. -/
theorem showSequence_cases (sound : engine.Sound) (root : NodeId) :
    (root ∉ engine.registry.methods.keys ∧
      engine.showSequence root = (false, engine.leaveSequence.2)) ∨
    (root ∈ engine.registry.methods.keys ∧ ∃ next, engine.showSequence root = (true, next) ∧
      next.UpToDate ∧ next.Laned ∧ next.isSequence = true ∧
      next.registry.bare = engine.registry.bare ∧ next.interaction = {}) := by
  have left := sound.leaveSequence
  unfold showSequence
  dsimp only
  rcases SequenceView.build_cases engine.leaveSequence.2.registry root
      engine.leaveSequence.2.config.sequence engine.leaveSequence.2.config.interaction with
    ⟨unknown, failed⟩ | ⟨method, view, pool, found, built, collected, lanes, _⟩
  · rw [failed]
    rw [keys_methods_leaveSequence] at unknown
    exact Or.inl ⟨unknown, rfl⟩
  · rw [built]
    have known := Store.mem_keys_of_get? found
    rw [keys_methods_leaveSequence] at known
    let shown := { engine.leaveSequence.2 with
      registry := { engine.leaveSequence.2.registry with pool }
      mode := .sequence view
      interaction := {} }.rebuildScene
    have laned : shown.Laned := by
      intro other modeEq
      cases modeEq
      constructor
      · intro noLanes
        apply SequenceView.laneOrder_ne_nil method.classId view.calls
        rw [← lanes, noLanes]
        rfl
      · intro lane laneMem
        apply SequenceView.laneOrder_stored left.coherent found collected
        rw [← lanes]
        exact List.mem_map.mpr ⟨lane, laneMem, rfl⟩
    have fitted := sameView_fitToContent shown
    refine Or.inr ⟨known, _, rfl, ?_, ?_, ?_, ?_, ?_⟩
    · exact (upToDate_rebuildScene _).of_sameView
        ⟨fitted.registry, fitted.mode, fitted.scene, fitted.hitTester⟩
    · exact laned.of_keys fitted.mode (congrArg (·.classes.keys) fitted.registry)
    · have mode : shown.fitToContent.2.mode = .sequence view := fitted.mode
      change shown.fitToContent.2.isSequence = true
      simp [isSequence, sequence?, mode]
    · exact (congrArg Registry.bare fitted.registry).trans (bare_leaveSequence engine)
    · exact interaction_fitToContent shown

/-- What an operation can do to the scene: build it anew, give up a call diagram
and leave its scene behind, or leave everything that is shown alone. -/
inductive SceneStep (engine : Engine R) (operation : Operation R) (next : Engine R) : Prop
  | rebuilt (refreshed : engine.refreshes operation = true) (upToDate : next.UpToDate)
      (laned : engine.Laned → next.Laned)
  | abandoned (unrefreshed : engine.refreshes operation = false)
      (abandons : engine.Abandons operation) (left : next = engine.leaveSequence.2)
  | kept (unrefreshed : engine.refreshes operation = false)
      (keeps : ¬ engine.Abandons operation) (same : next.SameView engine)

theorem RedrawsMap.sceneStep (redraws : engine.RedrawsMap (engine.refreshes operation) next)
    (noCalls : ∀ root, operation ≠ .showSequence root) : engine.SceneStep operation next := by
  rcases redraws with ⟨unchanged, rfl⟩ | ⟨changed, upToDate, mode⟩
  · apply SceneStep.kept unchanged
    · rintro ⟨root, shows, _⟩
      exact noCalls root shows
    · exact ⟨rfl, rfl, rfl, rfl⟩
  · exact SceneStep.rebuilt changed upToDate fun _ => laned_of_graph mode

theorem sceneStep_showSequence (sound : engine.Sound) (root : NodeId) :
    engine.SceneStep (.showSequence root) (engine.showSequence root).2 := by
  rcases showSequence_cases sound root with
    ⟨unknown, failed⟩ | ⟨_, next, shown, upToDate, laned, _⟩
  · have unrefreshed : engine.refreshes (.showSequence root) = false := by
      rw [refreshes, failed]
    rw [failed]
    by_cases sequence : engine.isSequence = true
    · exact SceneStep.abandoned unrefreshed ⟨root, rfl, sequence, unknown⟩ rfl
    · apply SceneStep.kept unrefreshed
      · rintro ⟨_, _, isSequence, _⟩
        exact sequence isSequence
      · unfold isSequence sequence? at sequence
        unfold leaveSequence
        cases mode : engine.mode with
        | graph => exact ⟨rfl, rfl, rfl, rfl⟩
        | sequence view => simp [mode] at sequence
  · have refreshed : engine.refreshes (.showSequence root) = true := by
      rw [refreshes, shown]
    rw [shown]
    exact SceneStep.rebuilt refreshed upToDate fun _ => laned

theorem sceneStep_of_viewing (viewing : operation.isViewing = true)
    (applied : engine.apply operation = .ok next) :
    engine.SceneStep operation next := by
  apply SceneStep.kept _ _ (sameView_of_viewing viewing applied)
  · cases operation <;> first | rfl | cases viewing
  · rintro ⟨root, rfl, _⟩
    cases viewing

theorem refreshes_of_rows {change : Bool × Registry R}
    (rows : engine.rowsResult? operation = some change) :
    engine.refreshes operation = (engine.withRows change).1 := by
  cases operation <;> cases rows <;> rfl

theorem sceneStep_of_rows (sound : engine.Sound) {change : Bool × Registry R}
    (rows : engine.rowsResult? operation = some change)
    (applied : engine.apply operation = .ok next) : engine.SceneStep operation next := by
  have redraws := redrawsMap_withRows (rowsChange_of_rows sound.coherent rows)
  rw [← refreshes_of_rows rows] at redraws
  rw [apply_of_rows rows] at applied
  rw [← Except.ok.inj applied]
  apply redraws.sceneStep
  rintro root rfl
  cases rows

/-- Every operation is a step of one of the three kinds. -/
theorem sceneStep_of_apply (sound : engine.Sound) (applied : engine.apply operation = .ok next) :
    engine.SceneStep operation next := by
  by_cases viewing : operation.isViewing = true
  · exact sceneStep_of_viewing viewing applied
  cases rows : engine.rowsResult? operation with
  | some change => exact sceneStep_of_rows sound rows applied
  | none =>
    cases operation with
    | setPerspective perspective =>
      have redraws := redrawsMap_setPerspective engine perspective
      exact Except.ok.inj applied ▸ redraws.sceneStep nofun
    | setData nodes links =>
      obtain ⟨upToDate, mode⟩ := upToDate_setData engine nodes links
      exact Except.ok.inj applied ▸
        SceneStep.rebuilt rfl upToDate fun _ => laned_of_graph mode
    | addData nodes links =>
      have redraws := redrawsMap_addData sound.coherent nodes links
      exact Except.ok.inj applied ▸ redraws.sceneStep nofun
    | deleteNode id =>
      have redraws := redrawsMap_deleteNode engine id
      exact Except.ok.inj applied ▸ redraws.sceneStep nofun
    | clear =>
      exact Except.ok.inj applied ▸
        SceneStep.rebuilt rfl ⟨rfl, rfl⟩ fun _ => laned_of_graph (mode_leaveSequence engine)
    | focusOnClass classId =>
      have redraws := redrawsMap_focusOnClass engine classId
      exact Except.ok.inj applied ▸ redraws.sceneStep nofun
    | showSequence root => exact Except.ok.inj applied ▸ sceneStep_showSequence sound root
    | exitSequence =>
      have redraws := redrawsMap_exitSequence engine
      exact Except.ok.inj applied ▸ redraws.sceneStep nofun
    | relayout =>
      exact Except.ok.inj applied ▸ SceneStep.rebuilt rfl (upToDate_relayout engine)
        fun laned => laned.of_keys (mode_relayout engine) (keys_classes_relayout engine)
    | _ => first | exact absurd rfl viewing | cases rows

theorem Laned.apply (laned : engine.Laned) (sound : engine.Sound)
    (applied : engine.apply operation = .ok next) : next.Laned := by
  cases sceneStep_of_apply sound applied with
  | rebuilt _ _ lanes => exact lanes laned
  | abandoned _ _ left =>
    rw [left]
    exact laned_of_graph (mode_leaveSequence engine)
  | kept _ _ same => exact laned.of_keys same.mode (congrArg (·.classes.keys) same.registry)

theorem Laned.run {start engine : Engine R} (laned : start.Laned) (sound : start.Sound)
    {operations : List (Operation R)} (ran : start.run operations = .ok engine) :
    engine.Laned := by
  have both : engine.Sound ∧ engine.Laned := by
    apply run_induction (motive := fun (engine : Engine R) => engine.Sound ∧ engine.Laned)
      ⟨sound, laned⟩ _ ran
    exact fun _ _ _ _ held applied => ⟨held.1.apply applied, held.2.apply held.1 applied⟩
  exact both.2

/-! ## Live labels -/

/-- An up to date scene shows live labels only. -/
theorem UpToDate.labels_live (upToDate : engine.UpToDate) (sound : engine.Sound) :
    ∀ id ∈ engine.frame.labels, (engine.pool.label? id).isSome = true := by
  apply Scene.labels_live_of_primitives
  rw [upToDate.scene, currentScene]
  cases mode : engine.mode with
  | graph => exact fun primitive mem => (Scene.mem_ofRegistry sound.coherent mem).2
  | sequence view =>
    have holds : engine.pool.Holds engine.owned := sound.balanced
    have live : ∀ id ∈ view.resources, (engine.pool.label? id).isSome = true := by
      intro id mem
      apply holds.label?
      rw [owned, lent, mode]
      exact List.mem_append_right _ (List.mem_map.mpr ⟨id, mem, rfl⟩)
    exact fun primitive mem => (Scene.mem_ofSequence mem).2 live

/-! ## Scenes that are left behind -/

/-- After these operations the scene is the one of a call diagram that was given
up, and nothing has built a scene since. -/
inductive Stale (start : Engine R) : List (Operation R) → Prop
  | abandon {operations : List (Operation R)} {operation : Operation R} {engine : Engine R}
      (ran : start.run operations = .ok engine) (abandons : engine.Abandons operation) :
      Stale start (operations ++ [operation])
  | keep {operations : List (Operation R)} {operation : Operation R} {engine : Engine R}
      (stale : Stale start operations) (ran : start.run operations = .ok engine)
      (unrefreshed : engine.refreshes operation = false) : Stale start (operations ++ [operation])

theorem not_stale_nil (start : Engine R) : ¬ Stale start [] := by
  generalize empty : ([] : List (Operation R)) = operations
  intro stale
  cases stale with
  | abandon => simp at empty
  | keep => simp at empty

theorem stale_concat_iff {start engine : Engine R} {operations : List (Operation R)}
    (ran : start.run operations = .ok engine) :
    Stale start (operations ++ [operation]) ↔
      engine.Abandons operation ∨
        (Stale start operations ∧ engine.refreshes operation = false) := by
  constructor
  · generalize whole : operations ++ [operation] = all
    intro stale
    cases stale with
    | abandon otherRan abandons =>
      obtain ⟨rfl, last⟩ := List.append_inj' whole rfl
      cases last
      cases ran.symm.trans otherRan
      exact Or.inl abandons
    | keep before otherRan unrefreshed =>
      obtain ⟨rfl, last⟩ := List.append_inj' whole rfl
      cases last
      cases ran.symm.trans otherRan
      exact Or.inr ⟨before, unrefreshed⟩
  · rintro (abandons | ⟨before, unrefreshed⟩)
    · exact Stale.abandon ran abandons
    · exact Stale.keep before ran unrefreshed

/-- The map is to be shown, but the scene has the lifeline of a call diagram. -/
structure LeftBehind (engine : Engine R) : Prop where
  mode : engine.mode = .graph
  lifeline : ∃ primitive ∈ engine.scene.primitives, primitive.role = .lifeline 0
  regions : engine.hitTester.regions = engine.scene.hitRegions

theorem LeftBehind.scene_ne (behind : engine.LeftBehind)
    (sound : engine.Sound) : engine.scene ≠ engine.currentScene := by
  intro same
  obtain ⟨primitive, mem, role⟩ := behind.lifeline
  rw [same, currentScene, behind.mode] at mem
  have onMap := (Scene.mem_ofRegistry sound.coherent mem).1
  rw [role] at onMap
  exact onMap

theorem Abandons.not_refreshes (sound : engine.Sound) (abandons : engine.Abandons operation) :
    engine.refreshes operation = false := by
  obtain ⟨root, rfl, _, unknown⟩ := abandons
  rcases showSequence_cases sound root with ⟨_, failed⟩ | ⟨known, _⟩
  · rw [refreshes, failed]
  · exact absurd known unknown

/-- The scene of a given up call diagram is left behind. -/
theorem UpToDate.leftBehind (upToDate : engine.UpToDate) (laned : engine.Laned)
    (shown : engine.isSequence = true) :
    engine.leaveSequence.2.LeftBehind := by
  unfold isSequence sequence? at shown
  unfold leaveSequence
  cases mode : engine.mode with
  | graph => simp [mode] at shown
  | sequence view =>
    have scene : engine.scene = .ofSequence view engine.registry.pool := by
      rw [upToDate.scene, currentScene, mode]
    constructor
    · rfl
    · have lifeline := Scene.exists_lifeline_ofSequence (laned view mode).1 engine.registry.pool
      rw [← scene] at lifeline
      exact lifeline
    · exact upToDate.regions

/-- After every run the scene is up to date, or stale and left behind. -/
theorem scene_cases_of_run {start engine : Engine R} (sound : start.Sound)
    (upToDate : start.UpToDate) (laned : start.Laned) {operations : List (Operation R)}
    (ran : start.run operations = .ok engine) :
    (¬ Stale start operations ∧ engine.UpToDate) ∨
      (Stale start operations ∧ engine.LeftBehind) := by
  induction operations using List.reverseRecOn generalizing engine with
  | nil =>
    cases ran
    exact Or.inl ⟨not_stale_nil start, upToDate⟩
  | append_singleton operations operation ih =>
    obtain ⟨before, ranBefore, applied⟩ := run_concat.mp ran
    have scene := ih ranBefore
    have soundBefore := sound.run ranBefore
    rw [stale_concat_iff ranBefore]
    cases sceneStep_of_apply soundBefore applied with
    | rebuilt refreshed fresh _ =>
      left
      refine ⟨?_, fresh⟩
      rintro (abandons | ⟨_, unrefreshed⟩)
      · rw [abandons.not_refreshes soundBefore] at refreshed
        cases refreshed
      · rw [unrefreshed] at refreshed
        cases refreshed
    | abandoned unrefreshed abandons left =>
      subst left
      right
      refine ⟨Or.inl abandons, ?_⟩
      obtain ⟨_, _, shown, _⟩ := abandons
      rcases scene with ⟨_, fresh⟩ | ⟨_, behind⟩
      · exact fresh.leftBehind (laned.run sound ranBefore) shown
      · simp [isSequence, sequence?, behind.mode] at shown
    | kept unrefreshed keeps same =>
      rcases scene with ⟨notStale, fresh⟩ | ⟨stale, behind⟩
      · left
        refine ⟨?_, fresh.of_sameView same⟩
        rintro (abandons | ⟨stale, _⟩)
        · exact keeps abandons
        · exact notStale stale
      · right
        refine ⟨Or.inr ⟨stale, unrefreshed⟩, same.mode.trans behind.mode, ?_, ?_⟩
        · rw [same.scene]
          exact behind.lifeline
        · rw [same.hitTester, same.scene]
          exact behind.regions

theorem upToDate_withLayouter (config : EngineConfig R) (text : TextMetrics R)
    (layouter : Layouter R) (viewport : Vec R) :
    (withLayouter config text layouter viewport).UpToDate :=
  ⟨rfl, rfl⟩

/-- After every run of a new diagram the hit tester has the regions of the
scene.  The scene is that of what is shown, and every label in a frame is live,
exactly unless a call diagram was given up for an unknown method and nothing has
built a scene since. -/
theorem scene_current_iff_not_stale (config : EngineConfig R) (text : TextMetrics R)
    (layouter : Layouter R) (viewport : Vec R) (operations : List (Operation R))
    {engine : Engine R}
    (ran : (withLayouter config text layouter viewport).run operations = .ok engine) :
    engine.hitTester.regions = engine.scene.hitRegions ∧
    ((engine.scene = engine.currentScene ∧
        ∀ id ∈ engine.frame.labels, (engine.pool.label? id).isSome = true) ↔
      ¬ Stale (withLayouter config text layouter viewport) operations) := by
  have sound := sound_withLayouter config text layouter viewport
  have soundAfter := sound.run ran
  obtain ⟨notStale, fresh⟩ | ⟨stale, behind⟩ :=
    scene_cases_of_run sound (upToDate_withLayouter config text layouter viewport)
      (laned_of_graph rfl) ran
  · refine ⟨fresh.regions, ?_⟩
    constructor
    · exact fun _ => notStale
    · exact fun _ => ⟨fresh.scene, fresh.labels_live soundAfter⟩
  · refine ⟨behind.regions, ?_⟩
    constructor
    · exact fun current => absurd current.1 (behind.scene_ne soundAfter)
    · exact fun notStale => absurd stale notStale

/-- The calls of the method in the small diagram can be shown. -/
theorem showSequence_sample :
    ∃ engine,
      (sampleStart.setData sampleNodes sampleClaims).2.showSequence "method" = (true, engine) ∧
      sampleStart.run [.setData sampleNodes sampleClaims, .showSequence "method"] = .ok engine ∧
      engine.isSequence = true ∧
      engine.registry.bare = (sampleStart.setData sampleNodes sampleClaims).2.registry.bare := by
  have sound := sound_setData sampleStart sampleNodes sampleClaims
  rcases showSequence_cases sound "method" with
    ⟨unknown, _⟩ | ⟨_, engine, opened, _, _, shown, bareEq, _⟩
  · rw [keys_sample.2] at unknown
    exact absurd (by decide) unknown
  · refine ⟨engine, opened, ?_, shown, bareEq⟩
    change Except.ok
      ((sampleStart.setData sampleNodes sampleClaims).2.showSequence "method").2 = .ok engine
    rw [opened]

/-- Asking for the calls of an unknown method while calls are shown leaves the
scene behind. -/
theorem not_current_after_unknown_calls :
    ∃ engine, sampleStart.run [.setData sampleNodes sampleClaims, .showSequence "method",
        .showSequence "unknown"] = .ok engine ∧
      ¬ (engine.scene = engine.currentScene ∧
        ∀ id ∈ engine.frame.labels, (engine.pool.label? id).isSome = true) := by
  have stale : Stale sampleStart [.setData sampleNodes sampleClaims, .showSequence "method",
      .showSequence "unknown"] := by
    obtain ⟨engine, _, ran, shown, bareEq⟩ := showSequence_sample
    have notFound : "unknown" ∉ engine.registry.methods.keys := by
      rw [← Registry.keys_bare_methods, bareEq, Registry.keys_bare_methods, keys_sample.2]
      decide
    exact Stale.abandon ran ⟨"unknown", rfl, shown, notFound⟩
  refine ⟨_, rfl, ?_⟩
  intro current
  exact (scene_current_iff_not_stale .standard _ _ _ _ rfl).2.mp current stale

end Engine

end CodeAtlas
