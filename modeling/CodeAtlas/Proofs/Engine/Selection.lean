import CodeAtlas.Proofs.Engine.Scene
import CodeAtlas.Proofs.Interaction

/-!
# What is selected is there

Clicks select what the scene shows.  Whatever happens afterwards, a selected
thing is still on the map, a selected call is still in the call diagram, and the
pointer hovers over a part of the scene, as long as no batch gives an id two
kinds.
-/

namespace CodeAtlas

variable {R : Type} [Scalar R] {engine next : Engine R}

/-- What a click on the role would select is on the map.  Calls are looked up
when they are clicked. -/
def Role.Selectable (reg : Registry R) : Role → Prop
  | .classBackground id | .classHeader id | .laneHeader _ id => id ∈ reg.classes.keys
  | .methodRow classId methodId => reg.Shows classId methodId
  | .standalone id => id ∈ reg.standalone.keys
  | .edge _ | .callArrow _ | .lifeline _ => True

namespace Engine

/-- No batch of the operation gives an id two kinds. -/
def Operation.OneKind : Operation R → Prop
  | .setData nodes _ | .addData nodes _ => CodeAtlas.OneKind nodes
  | _ => True

/-- The map is in order, and what is selected is on it or in the call diagram. -/
structure Grounded (engine : Engine R) : Prop where
  orderly : engine.registry.Orderly
  onMap : engine.interaction.OnMap engine.registry
  call : ∀ index ∈ engine.interaction.selectedCall,
    ∃ view, engine.mode = .sequence view ∧ index < view.calls.length

/-- Also the pointer hovers over a part of the scene, and a click can only select
what is on the map. -/
structure Attentive (engine : Engine R) : Prop where
  grounded : engine.Grounded
  hovered : ∀ role ∈ engine.interaction.hovered,
    ∃ region ∈ engine.scene.hitRegions, region.role = role
  regions : engine.hitTester.regions = engine.scene.hitRegions
  selectable : ∀ region ∈ engine.scene.hitRegions, region.role.Selectable engine.registry

omit [Scalar R] in
theorem Attentive.of_sameView (attentive : engine.Attentive) (same : next.SameView engine)
    (interaction : next.interaction = engine.interaction) :
    next.Attentive := by
  obtain ⟨⟨orderly, onMap, call⟩, hovered, regions, selectable⟩ := attentive
  rw [← same.registry] at orderly onMap selectable
  rw [← interaction] at onMap call hovered
  rw [← same.mode] at call
  rw [← same.scene] at hovered regions selectable
  rw [← same.hitTester] at regions
  exact ⟨⟨orderly, onMap, call⟩, hovered, regions, selectable⟩

theorem Attentive.fitToContent (attentive : engine.Attentive) :
    engine.fitToContent.2.Attentive :=
  attentive.of_sameView (sameView_fitToContent engine) (interaction_fitToContent engine)

omit [Scalar R] in
theorem grounded_of_deselected (orderly : engine.registry.Orderly)
    (deselected : engine.interaction = {}) : engine.Grounded := by
  constructor
  · exact orderly
  · rw [deselected]
    exact Interaction.onMap_empty engine.registry
  · rw [deselected]
    exact nofun

/-! ## Building the scene -/

/-- Every region of an up to date scene is about something on the map. -/
theorem UpToDate.selectable (upToDate : engine.UpToDate) (coherent : engine.registry.Coherent)
    (laned : engine.Laned) :
    ∀ region ∈ engine.scene.hitRegions, region.role.Selectable engine.registry := by
  intro region mem
  obtain ⟨primitive, primitiveMem, roleEq⟩ := Scene.exists_primitive_of_hitRegions mem
  rw [← roleEq]
  rw [upToDate.scene, currentScene] at primitiveMem
  cases mode : engine.mode with
  | graph =>
    rw [mode] at primitiveMem
    have onMap := (Scene.mem_ofRegistry coherent primitiveMem).1
    cases role : primitive.role with
    | edge id => trivial
    | callArrow index => trivial
    | lifeline lane => trivial
    | laneHeader lane classId =>
      rw [role] at onMap
      exact onMap.elim
    | _ =>
      rw [role] at onMap
      exact onMap
  | sequence view =>
    rw [mode] at primitiveMem
    have inSequence := (Scene.mem_ofSequence primitiveMem).1
    cases role : primitive.role with
    | edge id => trivial
    | callArrow index => trivial
    | lifeline lane => trivial
    | laneHeader lane classId =>
      rw [role] at inSequence
      obtain ⟨item, itemMem, rfl⟩ := List.mem_map.mp inSequence
      exact (laned view mode).2 item itemMem
    | _ =>
      rw [role] at inSequence
      exact inSequence.elim

theorem Grounded.rebuildScene (grounded : engine.Grounded)
    (laned : engine.Laned) : engine.rebuildScene.Attentive := by
  have upToDate := upToDate_rebuildScene engine
  constructor
  · exact ⟨grounded.orderly,
      ⟨grounded.onMap.selectedClass, grounded.onMap.selectedMethod, grounded.onMap.selectedNode⟩,
      grounded.call⟩
  · intro role hovered
    obtain ⟨_, under⟩ := Option.mem_filter_iff.mp hovered
    obtain ⟨region, regionMem, same⟩ := List.any_eq_true.mp under
    exact ⟨region, regionMem, beq_iff_eq.mp same⟩
  · exact upToDate.regions
  · exact upToDate.selectable grounded.orderly.coherent laned

theorem Grounded.relayout (grounded : engine.Grounded)
    (laned : engine.Laned) : engine.relayout.Attentive := by
  obtain ⟨reg, relayoutEq, bareEq, settled, _⟩ := engine.relayout_eq
  obtain ⟨orderly, onMap, call⟩ := grounded
  have keysEq : reg.classes.keys = engine.registry.classes.keys := by
    rw [← Registry.keys_bare_classes, bareEq, Registry.keys_bare_classes]
  have placed : Grounded { engine with registry := reg } := by
    constructor
    · exact ⟨orderly.coherent.of_bare_eq bareEq, settled orderly.settled,
        orderly.unambiguous.of_bare_eq bareEq⟩
    · exact onMap.of_grows orderly.coherent orderly.settled (settled orderly.settled)
        (Registry.grows_of_bare_eq bareEq)
    · exact call
  rw [relayoutEq]
  exact placed.rebuildScene (laned.of_keys rfl keysEq)

/-! ## Leaving a call diagram -/

theorem orderly_leaveSequence (orderly : engine.registry.Orderly) :
    engine.leaveSequence.2.registry.Orderly := by
  constructor
  · exact orderly.coherent.of_bare_eq (bare_leaveSequence engine)
  · unfold leaveSequence
    cases engine.mode with
    | graph => exact orderly.settled
    | sequence view =>
      exact orderly.settled.of_subset (fun _ mem => mem) (fun _ mem => mem) fun _ mem => mem
  · exact orderly.unambiguous.of_bare_eq (bare_leaveSequence engine)

section
omit [Scalar R]

theorem onMap_leaveSequence {state : Interaction}
    (onMap : state.OnMap engine.registry) : state.OnMap engine.leaveSequence.2.registry := by
  unfold leaveSequence
  cases engine.mode with
  | graph => exact onMap
  | sequence view => exact ⟨onMap.selectedClass, onMap.selectedMethod, onMap.selectedNode⟩

theorem selectable_leaveSequence {role : Role} (selectable : role.Selectable engine.registry) :
    role.Selectable engine.leaveSequence.2.registry := by
  unfold leaveSequence
  cases engine.mode with
  | graph => exact selectable
  | sequence view => cases role <;> exact selectable

/-- Leaving deselects the call and nothing else. -/
theorem interaction_leaveSequence (call : ∀ index ∈ engine.interaction.selectedCall,
      ∃ view, engine.mode = .sequence view ∧ index < view.calls.length) :
    engine.leaveSequence.2.interaction = { engine.interaction with selectedCall := none } := by
  unfold leaveSequence
  cases mode : engine.mode with
  | graph =>
    have noCall : engine.interaction.selectedCall = none := by
      cases selected : engine.interaction.selectedCall with
      | none => rfl
      | some index =>
        obtain ⟨view, shown, _⟩ := call index selected
        rw [mode] at shown
        cases shown
    rw [← noCall]
  | sequence view => rfl

end

theorem Grounded.leaveSequence (grounded : engine.Grounded) :
    engine.leaveSequence.2.Grounded := by
  obtain ⟨orderly, onMap, call⟩ := grounded
  have deselected := interaction_leaveSequence call
  constructor
  · exact orderly_leaveSequence orderly
  · apply onMap_leaveSequence
    rw [deselected]
    exact onMap.withoutCall
  · rw [deselected]
    exact nofun

/-- The scene that is left behind can still be hovered over and clicked on. -/
theorem Attentive.leaveSequence (attentive : engine.Attentive) :
    engine.leaveSequence.2.Attentive := by
  have deselected := interaction_leaveSequence attentive.grounded.call
  have scene : engine.leaveSequence.2.scene = engine.scene ∧
      engine.leaveSequence.2.hitTester = engine.hitTester := by
    unfold Engine.leaveSequence
    cases engine.mode <;> exact ⟨rfl, rfl⟩
  constructor
  · exact attentive.grounded.leaveSequence
  · rw [deselected, scene.1]
    exact attentive.hovered
  · rw [scene.1, scene.2]
    exact attentive.regions
  · rw [scene.1]
    exact fun region mem => selectable_leaveSequence (attentive.selectable region mem)

/-! ## Operations on the map -/

theorem Attentive.setPerspective (attentive : engine.Attentive)
    (perspective : Perspective) : (engine.setPerspective perspective).2.Attentive := by
  have left := orderly_leaveSequence attentive.grounded.orderly
  unfold Engine.setPerspective
  split
  · exact attentive
  · have emptied : Grounded { engine.leaveSequence.2 with
        registry := (engine.leaveSequence.2.registry.setPerspective perspective).2
        interaction := {} } :=
      grounded_of_deselected (left.setPerspective perspective) rfl
    have shown := emptied.rebuildScene (laned_of_graph (mode_leaveSequence engine))
    exact shown.of_sameView ⟨rfl, rfl, rfl, rfl⟩ rfl

theorem attentive_setData (engine : Engine R) {nodes : List Node}
    (oneKind : CodeAtlas.OneKind nodes) (links : List Relationship) :
    (engine.setData nodes links).2.Attentive := by
  apply Attentive.fitToContent
  apply Grounded.relayout
  · exact grounded_of_deselected ((Registry.orderly_clear _).addData oneKind links) rfl
  · exact laned_of_graph (mode_leaveSequence engine)

theorem Attentive.addData (attentive : engine.Attentive) {nodes : List Node}
    (oneKind : CodeAtlas.OneKind nodes) (links : List Relationship) :
    (engine.addData nodes links).2.Attentive := by
  obtain ⟨orderly, onMap, call⟩ := attentive.grounded
  have grown := orderly.addData oneKind links
  have added : Grounded { engine with
      registry := (engine.registry.addData nodes links).2 } := by
    constructor
    · exact grown
    · exact onMap.of_grows orderly.coherent orderly.settled grown.settled
        (orderly.coherent.grows_addData nodes links)
    · exact call
  unfold Engine.addData
  dsimp only
  split
  · exact added.leaveSequence.relayout (laned_of_graph (mode_leaveSequence _))
  · next unchanged =>
      have same := orderly.coherent.addData_of_not_changed (Bool.eq_false_iff.mpr unchanged)
      dsimp only
      rw [same]
      exact attentive

theorem Attentive.deleteNode (attentive : engine.Attentive) (id : NodeId) :
    (engine.deleteNode id).2.Attentive := by
  obtain ⟨orderly, onMap, call⟩ := attentive.grounded
  have deleted := orderly.deleteNode id
  have forgotten := onMap.withoutCall.deleteNode orderly id
  unfold Engine.deleteNode
  dsimp only
  rcases result : engine.registry.deleteNode id with ⟨found, reg⟩
  rw [result] at deleted forgotten
  cases found with
  | false =>
    cases Registry.deleteNode_eq_of_false result
    exact attentive
  | true =>
    have deselected : { engine with registry := reg }.leaveSequence.2.interaction =
        { engine.interaction with selectedCall := none } :=
      interaction_leaveSequence call
    apply Grounded.relayout
    · constructor
      · exact orderly_leaveSequence deleted
      · dsimp only
        rw [deselected]
        exact onMap_leaveSequence forgotten
      · dsimp only
        rw [deselected, Interaction.selectedCall_foldl_forget]
        exact nofun
    · exact laned_of_graph (mode_leaveSequence _)

theorem attentive_clear (engine : Engine R) : engine.clear.Attentive := by
  have emptied : Grounded { engine.leaveSequence.2 with
      registry := engine.leaveSequence.2.registry.clear
      interaction := {}
      pointer := engine.leaveSequence.2.pointer.cancel } :=
    grounded_of_deselected (Registry.orderly_clear _) rfl
  have shown := emptied.rebuildScene (laned_of_graph (mode_leaveSequence engine))
  exact shown.of_sameView ⟨rfl, rfl, rfl, rfl⟩ rfl

theorem Attentive.focusOnClass (attentive : engine.Attentive)
    (classId : NodeId) : (engine.focusOnClass classId).2.Attentive := by
  obtain ⟨orderly, _, _⟩ := attentive.grounded
  have focused := orderly.focusOnClass classId
  by_cases known : engine.registry.classes.contains classId = true
  · have kept := orderly.coherent.mem_classes_focusOnClass (Store.contains_iff.mp known)
    have selected := (Interaction.onMap_empty _).selectClass kept
    unfold Engine.focusOnClass
    unfold Registry.focusOnClass at focused selected ⊢
    rw [if_pos known] at focused selected ⊢
    apply Attentive.fitToContent
    apply Grounded.relayout
    · constructor
      · exact orderly_leaveSequence focused
      · exact onMap_leaveSequence selected
      · exact nofun
    · exact laned_of_graph (mode_leaveSequence _)
  · unfold Engine.focusOnClass Registry.focusOnClass
    rw [if_neg known]
    exact attentive

theorem selectedClass_relayout (engine : Engine R) :
    engine.relayout.interaction.selectedClass = engine.interaction.selectedClass := by
  obtain ⟨reg, relayoutEq, _⟩ := engine.relayout_eq
  rw [relayoutEq]
  rfl

theorem selectedClass_focusOnClass {classId : NodeId}
    (known : classId ∈ engine.registry.classes.keys) :
    (engine.focusOnClass classId).2.interaction.selectedClass = some classId := by
  unfold Engine.focusOnClass Registry.focusOnClass
  rw [if_pos (Store.contains_iff.mpr known)]
  dsimp only
  rw [interaction_fitToContent]
  exact selectedClass_relayout _

theorem Attentive.withRows (attentive : engine.Attentive) {change : Bool × Registry R}
    (rows : engine.registry.RowsChange change) :
    (engine.withRows change).2.Attentive := by
  obtain ⟨orderly, onMap, call⟩ := attentive.grounded
  have changed := orderly.rowsChange rows
  obtain ⟨classes, methods, standalone⟩ := rows.keeps orderly.coherent
  rcases rows with rfl | ⟨classId, toggles, focus, _, rfl⟩
  · exact attentive
  · let after := { engine with
      registry := (engine.registry.reconfigure classId toggles focus).refreshClass classId }
    have bareEq : after.leaveSequence.2.registry.bare = after.registry.bare :=
      bare_leaveSequence after
    have deselected : after.leaveSequence.2.interaction =
        { engine.interaction with selectedCall := none } :=
      interaction_leaveSequence call
    have left : after.leaveSequence.2.registry.Orderly := orderly_leaveSequence changed
    have noCall : after.leaveSequence.2.interaction.OnMap engine.registry := by
      rw [deselected]
      exact onMap.withoutCall
    apply Grounded.relayout
    · constructor
      · exact left
      · apply noCall.rowsChange left.coherent
        · rw [← classes, ← Registry.keys_bare_classes, bareEq, Registry.keys_bare_classes]
        · rw [bareEq, ← methods]
        · rw [bareEq, ← standalone]
      · dsimp only
        rw [deselected]
        exact nofun
    · exact laned_of_graph (mode_leaveSequence after)

/-! ## Call diagrams -/

theorem Attentive.showSequence (attentive : engine.Attentive) (sound : engine.Sound)
    (root : NodeId) : (engine.showSequence root).2.Attentive := by
  have soundAfter := sound.showSequence root
  rcases showSequence_cases sound root with
    ⟨_, failed⟩ | ⟨_, next, shown, upToDate, laned, _, bareEq, deselected⟩
  · rw [failed]
    exact attentive.leaveSequence
  · rw [shown] at soundAfter ⊢
    constructor
    · apply grounded_of_deselected _ deselected
      exact ⟨soundAfter.coherent, soundAfter.settled,
        attentive.grounded.orderly.unambiguous.of_bare_eq bareEq⟩
    · rw [deselected]
      exact nofun
    · exact upToDate.regions
    · exact upToDate.selectable soundAfter.coherent laned

theorem Attentive.exitSequence (attentive : engine.Attentive) :
    engine.exitSequence.2.Attentive := by
  have left := orderly_leaveSequence attentive.grounded.orderly
  have mode := mode_leaveSequence engine
  have stayed := attentive.leaveSequence
  unfold Engine.exitSequence
  rcases result : engine.leaveSequence with ⟨shown, after⟩
  rw [result] at left mode stayed
  cases shown with
  | false => exact stayed
  | true =>
    apply Attentive.fitToContent
    apply Grounded.rebuildScene
    · exact grounded_of_deselected left rfl
    · exact laned_of_graph mode

/-! ## Pointer input -/

theorem exists_region_of_pick (regions : engine.hitTester.regions = engine.scene.hitRegions)
    {screen : Vec R} {role : Role} (picked : (engine.pick screen).map Hit.role = some role) :
    ∃ region ∈ engine.scene.hitRegions, region.role = role := by
  obtain ⟨hit, hitPicked, rfl⟩ := Option.map_eq_some_iff.mp picked
  have met := (Option.mem_filter_iff.mp hitPicked).1
  rw [← regions]
  exact HitTester.exists_region_of_cast met

section

variable (attentive : engine.Attentive)
include attentive

omit [Scalar R] in
theorem Attentive.hover {role : Option Role}
    (under : ∀ part ∈ role, ∃ region ∈ engine.scene.hitRegions, region.role = part) :
    (engine.hover role).2.Attentive := by
  obtain ⟨⟨orderly, onMap, call⟩, hovered, regions, selectable⟩ := attentive
  unfold Engine.hover Interaction.setHovered
  by_cases same : engine.interaction.hovered = role
  · rw [if_pos same]
    exact ⟨⟨orderly, onMap, call⟩, hovered, regions, selectable⟩
  · rw [if_neg same]
    exact ⟨⟨orderly, ⟨onMap.selectedClass, onMap.selectedMethod, onMap.selectedNode⟩, call⟩,
      under, regions, selectable⟩

theorem Attentive.pointerMove (screen : Vec R) : (engine.pointerMove screen).2.Attentive := by
  have moved : Attentive { engine with pointer := (engine.pointer.move screen).2 } :=
    attentive.of_sameView ⟨rfl, rfl, rfl, rfl⟩ rfl
  unfold Engine.pointerMove
  dsimp only
  split
  · apply moved.hover
    exact fun role picked => exists_region_of_pick moved.regions picked
  · exact moved.of_sameView ⟨rfl, rfl, rfl, rfl⟩ rfl
  · exact moved

omit [Scalar R] in
/-- Another selection, the pointer staying where it is. -/
theorem Attentive.select {state : Interaction} (onMap : state.OnMap engine.registry)
    (call : ∀ index ∈ state.selectedCall,
      ∃ view, engine.mode = .sequence view ∧ index < view.calls.length)
    (hovered : state.hovered = engine.interaction.hovered) (event : Event R) :
    ({ engine with interaction := state }.publish event).Attentive :=
  ⟨⟨attentive.grounded.orderly, onMap, call⟩,
    fun role mem => attentive.hovered role (hovered ▸ mem), attentive.regions,
    attentive.selectable⟩

theorem Attentive.click (screen : Vec R) : (engine.click screen).2.Attentive := by
  obtain ⟨orderly, onMap, call⟩ := attentive.grounded
  have selectable : ∀ role, (engine.pick screen).map Hit.role = some role →
      role.Selectable engine.registry := by
    intro role picked
    obtain ⟨region, regionMem, rfl⟩ := exists_region_of_pick attentive.regions picked
    exact attentive.selectable region regionMem
  unfold Engine.click
  dsimp only
  split
  · next id picked =>
      exact attentive.select (onMap.selectClass (selectable _ picked)) call rfl _
  · next id picked =>
      exact attentive.select (onMap.selectClass (selectable _ picked)) call rfl _
  · next classId id picked =>
      exact attentive.select (onMap.selectRow orderly.coherent (selectable _ picked)) call rfl _
  · next id picked =>
      exact attentive.select (onMap.selectNode (selectable _ picked)) call rfl _
  · next lane id picked =>
      exact attentive.select (onMap.selectClass (selectable _ picked)) call rfl _
  · next index picked =>
      split
      · next shown found =>
          apply attentive.select
          · exact ⟨onMap.selectedClass, onMap.selectedMethod, onMap.selectedNode⟩
          · intro other selected
            cases selected
            obtain ⟨view, viewShown, callFound⟩ := Option.bind_eq_some_iff.mp found
            refine ⟨view, ?_, (List.getElem?_eq_some_iff.mp callFound).1⟩
            unfold sequence? at viewShown
            cases mode : engine.mode with
            | graph => simp [mode] at viewShown
            | sequence current =>
              rw [mode] at viewShown
              cases viewShown
              rfl
          · rfl
      · exact attentive
  · exact attentive
  · exact attentive
  · exact attentive

theorem Attentive.pointerUp (screen : Vec R) (button : PointerButton) :
    (engine.pointerUp screen button).2.Attentive := by
  have lifted : Attentive { engine with pointer := (engine.pointer.up screen button).2 } :=
    attentive.of_sameView ⟨rfl, rfl, rfl, rfl⟩ rfl
  unfold Engine.pointerUp
  dsimp only
  split
  · exact lifted.click _
  · unfold rightClick
    split
    · exact lifted
    · exact lifted.of_sameView ⟨rfl, rfl, rfl, rfl⟩ rfl
  · exact lifted

omit [Scalar R] in
theorem Attentive.pointerLeave : engine.pointerLeave.2.Attentive := by
  have cancelled : Attentive { engine with pointer := engine.pointer.cancel } :=
    attentive.of_sameView ⟨rfl, rfl, rfl, rfl⟩ rfl
  exact cancelled.hover nofun

/-- Every operation keeps the selection there. -/
theorem Attentive.apply (sound : engine.Sound) (laned : engine.Laned) {operation : Operation R}
    (oneKind : operation.OneKind) (applied : engine.apply operation = .ok next) :
    next.Attentive := by
  cases rows : engine.rowsResult? operation with
  | some change =>
    rw [apply_of_rows rows] at applied
    exact Except.ok.inj applied ▸ attentive.withRows (rowsChange_of_rows sound.coherent rows)
  | none =>
    cases operation with
    | setPerspective perspective =>
      exact Except.ok.inj applied ▸ attentive.setPerspective perspective
    | setData nodes links =>
      exact Except.ok.inj applied ▸ attentive_setData engine oneKind links
    | addData nodes links =>
      exact Except.ok.inj applied ▸ attentive.addData oneKind links
    | deleteNode id => exact Except.ok.inj applied ▸ attentive.deleteNode id
    | clear => exact Except.ok.inj applied ▸ attentive_clear engine
    | focusOnClass classId => exact Except.ok.inj applied ▸ attentive.focusOnClass classId
    | showSequence root => exact Except.ok.inj applied ▸ attentive.showSequence sound root
    | exitSequence => exact Except.ok.inj applied ▸ attentive.exitSequence
    | relayout => exact Except.ok.inj applied ▸ attentive.grounded.relayout laned
    | fitToContent => exact Except.ok.inj applied ▸ attentive.fitToContent
    | resize width height =>
      cases applied
      exact attentive.of_sameView ⟨rfl, rfl, rfl, rfl⟩ rfl
    | pointerDown screen button =>
      cases applied
      exact attentive.of_sameView ⟨rfl, rfl, rfl, rfl⟩ rfl
    | pointerMove screen => exact Except.ok.inj applied ▸ attentive.pointerMove screen
    | pointerUp screen button =>
      exact Except.ok.inj applied ▸ attentive.pointerUp screen button
    | pointerLeave => exact Except.ok.inj applied ▸ attentive.pointerLeave
    | wheel screen notches =>
      obtain ⟨camera, rfl⟩ := apply_wheel_eq applied
      exact attentive.of_sameView ⟨rfl, rfl, rfl, rfl⟩ rfl
    | _ => cases rows

end

theorem attentive_withLayouter (config : EngineConfig R) (text : TextMetrics R)
    (layouter : Layouter R) (viewport : Vec R) :
    (withLayouter config text layouter viewport).Attentive := by
  constructor
  · exact grounded_of_deselected (Registry.orderly_create _ _ _) rfl
  · exact nofun
  · rfl
  · exact nofun

/-- After every run of a new diagram whose batches give every id one kind: a
selected class is stored; a selected method is stored, visible and a method of
the selected class; a selected standalone node is stored; a call is selected only
while calls are shown, and is one of them; and what is hovered over is a part of
the scene. -/
theorem selection_valid_after_run (config : EngineConfig R) (text : TextMetrics R)
    (layouter : Layouter R) (viewport : Vec R) (operations : List (Operation R))
    (oneKind : ∀ operation ∈ operations, operation.OneKind) {engine : Engine R}
    (ran : (withLayouter config text layouter viewport).run operations = .ok engine) :
    (∀ id, engine.interaction.selectedClass = some id →
      ∃ node, engine.registry.classes.get? id = some node) ∧
    (∀ id, engine.interaction.selectedMethod = some id →
      ∃ method, engine.registry.methods.get? id = some method ∧ method.visible = true ∧
        engine.interaction.selectedClass = some method.classId) ∧
    (∀ id, engine.interaction.selectedNode = some id →
      ∃ node, engine.registry.standalone.get? id = some node) ∧
    (∀ index, engine.interaction.selectedCall = some index →
      ∃ view, engine.mode = .sequence view ∧ index < view.calls.length) ∧
    (∀ role, engine.interaction.hovered = some role →
      ∃ region ∈ engine.scene.hitRegions, region.role = role) := by
  have held : engine.Sound ∧ engine.Laned ∧ engine.Attentive := by
    apply run_induction
      (motive := fun (engine : Engine R) => engine.Sound ∧ engine.Laned ∧ engine.Attentive)
      ⟨sound_withLayouter config text layouter viewport, laned_of_graph rfl,
        attentive_withLayouter config text layouter viewport⟩ _ ran
    intro engine next operation mem ⟨sound, laned, attentive⟩ applied
    exact ⟨sound.apply applied, laned.apply sound applied,
      attentive.apply sound laned (oneKind operation mem) applied⟩
  obtain ⟨sound, _, ⟨⟨_, onMap, call⟩, hovered, _, _⟩⟩ := held
  refine ⟨fun id selected => Store.exists_get? (onMap.selectedClass id selected), ?_,
    fun id selected => Store.exists_get? (onMap.selectedNode id selected), call, hovered⟩
  intro id selected
  obtain ⟨_, classSelected, method, methodMem, rfl, rfl, visible⟩ :=
    onMap.selectedMethod id selected
  exact ⟨method, Store.get?_of_mem sound.coherent.methodKeys methodMem, visible, classSelected⟩

/-- Focusing on a class selects it, and it is there. -/
theorem selection_valid_sample :
    ∃ engine, sampleStart.run [.setData sampleNodes sampleClaims, .focusOnClass "class"] =
        .ok engine ∧
      engine.interaction.selectedClass = some "class" ∧
      ∃ node, engine.registry.classes.get? "class" = some node := by
  obtain ⟨engine, ran⟩ : ∃ engine, sampleStart.run [.setData sampleNodes sampleClaims,
      .focusOnClass "class"] = .ok engine :=
    ⟨_, rfl⟩
  have known :
      "class" ∈ (sampleStart.setData sampleNodes sampleClaims).2.registry.classes.keys := by
    rw [keys_sample.1]
    decide
  have selected : engine.interaction.selectedClass = some "class" := by
    cases ran
    exact selectedClass_focusOnClass known
  have oneKind : ∀ operation ∈ [.setData sampleNodes sampleClaims,
      .focusOnClass "class"], (operation : Operation Float32).OneKind := by
    intro operation mem
    rcases List.mem_pair.mp mem with rfl | rfl
    · unfold Operation.OneKind CodeAtlas.OneKind
      decide
    · trivial
  have valid := selection_valid_after_run .standard _ _ _ _ oneKind ran
  exact ⟨engine, ran, selected, valid.1 "class" selected⟩

end Engine

end CodeAtlas
