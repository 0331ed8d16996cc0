import CodeAtlas.Proofs.Camera
import CodeAtlas.Proofs.Engine.Resources
import CodeAtlas.Proofs.Registry.Run

/-!
# What an operation does to the map

Seen from the map there are few kinds of operations.  One leaves it alone, gives
calls up or shows them, empties the map, or changes something on it and has
everything laid out again.  Whatever depends on registry, mode and layout only is
settled kind by kind.
-/

namespace CodeAtlas

variable {R : Type} [Scalar R] {engine next : Engine R}

namespace Engine

variable {operation : Operation R}

/-- What a diagram is made with: its settings and the way to lay out. -/
def setup (engine : Engine R) : EngineConfig R × Layouter R :=
  (engine.config, engine.layouter)

/-- Registry and mode are the same, and so is what the diagrams are made with. -/
structure SameMap (next engine : Engine R) : Prop where
  registry : next.registry = engine.registry
  mode : next.mode = engine.mode
  setup : next.setup = engine.setup

omit [Scalar R] in
theorem SameMap.layouter {next engine : Engine R} (same : next.SameMap engine) :
    next.layouter = engine.layouter :=
  congrArg Prod.snd same.setup

omit [Scalar R] in
theorem SameMap.trans {next middle engine : Engine R} (later : next.SameMap middle)
    (earlier : middle.SameMap engine) : next.SameMap engine :=
  ⟨later.registry.trans earlier.registry, later.mode.trans earlier.mode,
    later.setup.trans earlier.setup⟩

/-! ## Looking at a diagram -/

theorem sameMap_fitToContent (engine : Engine R) : engine.fitToContent.2.SameMap engine := by
  unfold fitToContent
  split <;> exact ⟨rfl, rfl, rfl⟩

theorem setup_click (engine : Engine R) (screen : Vec R) :
    (engine.click screen).2.setup = engine.setup := by
  unfold click
  dsimp only
  split
  case h_6 => split <;> rfl
  all_goals rfl

theorem setup_rightClick (engine : Engine R) (screen : Vec R) :
    (engine.rightClick screen).setup = engine.setup := by
  unfold rightClick
  split <;> rfl

theorem setup_of_viewing (viewing : operation.isViewing = true)
    (applied : engine.apply operation = .ok next) :
    next.setup = engine.setup := by
  cases operation with
  | fitToContent =>
    cases applied
    exact (sameMap_fitToContent engine).setup
  | resize width height =>
    cases applied
    rfl
  | pointerDown screen button =>
    cases applied
    rfl
  | pointerMove screen =>
    cases applied
    unfold pointerMove
    dsimp only
    split <;> rfl
  | pointerUp screen button =>
    cases applied
    unfold pointerUp
    dsimp only
    split
    · exact setup_click _ _
    · exact setup_rightClick _ _
    · rfl
  | pointerLeave =>
    cases applied
    rfl
  | wheel screen notches =>
    obtain ⟨camera, rfl⟩ := apply_wheel_eq applied
    rfl
  | _ => cases viewing

theorem sameMap_of_viewing (viewing : operation.isViewing = true)
    (applied : engine.apply operation = .ok next) :
    next.SameMap engine :=
  ⟨(sameView_of_viewing viewing applied).registry, (sameView_of_viewing viewing applied).mode,
    setup_of_viewing viewing applied⟩

section

variable (engine) (ordered : engine.config.camera.minExtent ≤ engine.config.camera.maxExtent)
include ordered

/-- Only the wheel can fail, and it does not when the limits of the zoom are in
order. -/
theorem exists_apply_of_viewing (viewing : operation.isViewing = true) :
    ∃ next, engine.apply operation = .ok next := by
  cases operation with
  | wheel screen notches =>
    obtain ⟨result, zoomed⟩ := engine.camera.exists_zoom screen notches
      engine.config.camera.zoomStep ordered
    exact ⟨{ engine with camera := result.2 }, by simp only [apply, wheel, zoomed]; rfl⟩
  | fitToContent => exact ⟨_, rfl⟩
  | resize width height => exact ⟨_, rfl⟩
  | pointerDown screen button => exact ⟨_, rfl⟩
  | pointerMove screen => exact ⟨_, rfl⟩
  | pointerUp screen button => exact ⟨_, rfl⟩
  | pointerLeave => exact ⟨_, rfl⟩
  | _ => cases viewing

theorem exists_run_of_viewing {operations : List (Operation R)}
    (viewing : ∀ operation ∈ operations, operation.isViewing = true) :
    ∃ final, engine.run operations = .ok final := by
  induction operations generalizing engine with
  | nil => exact ⟨engine, rfl⟩
  | cons operation rest ih =>
    obtain ⟨first, others⟩ := List.forall_mem_cons.mp viewing
    obtain ⟨next, applied⟩ := engine.exists_apply_of_viewing ordered first
    have setup := setup_of_viewing first applied
    have config : next.config = engine.config := congrArg Prod.fst setup
    rw [run_cons applied]
    exact ih next (config ▸ ordered) others

end

/-! ## Layouts -/

/-- A layout looks at the map only. -/
theorem SameMap.relayout {next engine : Engine R} (same : next.SameMap engine) :
    next.relayout.SameMap engine.relayout := by
  unfold Engine.relayout
  rw [same.registry, same.layouter]
  dsimp only
  split
  · exact ⟨same.registry, same.mode, same.setup⟩
  · exact ⟨rfl, same.mode, congrArg (fun setup => (setup.1, engine.layouter)) same.setup⟩

theorem setup_relayout (engine : Engine R) : engine.relayout.setup = engine.setup := by
  obtain ⟨reg, relayoutEq, _⟩ := engine.relayout_eq
  rw [relayoutEq]
  rfl

omit [Scalar R] in
theorem setup_leaveSequence (engine : Engine R) :
    engine.leaveSequence.2.setup = engine.setup := by
  unfold leaveSequence
  cases engine.mode <;> rfl

/-! ## Kinds of operations -/

/-- What an operation can do to the map. -/
inductive MapStep (engine next : Engine R) : Prop where
  | kept (same : next.SameMap engine)
  | left (same : next.SameMap engine.leaveSequence.2)
  | shown (root : NodeId) {view : SequenceView R} {lending : Registry R}
      (built : SequenceView.build engine.leaveSequence.2.registry root
        engine.leaveSequence.2.config.sequence engine.leaveSequence.2.config.interaction =
          some (view, lending))
      (same : next.SameMap
        { engine.leaveSequence.2 with registry := lending, mode := .sequence view })
  | emptied (operation : Registry.Operation R)
      (same : next.SameMap { engine.leaveSequence.2 with
        registry := engine.leaveSequence.2.registry.apply operation })
      (empty : next.registry.layoutNodes = [])
  | relaid (same : next.SameMap engine.relayout)
  | replaced (nodes : List Node) (links : List Relationship)
      (same : next.SameMap ({ engine.leaveSequence.2 with
        registry :=
          engine.leaveSequence.2.registry.apply (.setData nodes links) }.relayout))
  | changed (operation : Registry.Operation R) (lends : operation.empties = false)
      (same : next.SameMap
        ({ engine with registry := engine.registry.apply operation }.leaveSequence.2.relayout))

/-- Changing rows is an operation of the registry. -/
theorem exists_operation_of_rows {change : Bool × Registry R}
    (rows : engine.rowsResult? operation = some change) :
    ∃ rowsOperation : Registry.Operation R, rowsOperation.empties = false ∧
      change.2 = engine.registry.apply rowsOperation := by
  cases operation with
  | setToggle classId toggle enabled =>
    cases rows
    exact ⟨.setToggle classId toggle enabled, rfl, rfl⟩
  | flipToggle classId toggle =>
    cases rows
    exact ⟨.flipToggle classId toggle, rfl, rfl⟩
  | focusMethod methodId =>
    cases rows
    exact ⟨.focusMethod methodId, rfl, rfl⟩
  | restoreMethods classId =>
    cases rows
    exact ⟨.restoreMethods classId, rfl, rfl⟩
  | _ => cases rows

theorem mapStep_of_rows (coherent : engine.registry.Coherent) {change : Bool × Registry R}
    (rows : engine.rowsResult? operation = some change) :
    engine.MapStep (engine.withRows change).2 := by
  obtain ⟨rowsOperation, lends, changeEq⟩ := exists_operation_of_rows rows
  rcases rowsChange_of_rows coherent rows with rfl | ⟨classId, toggles, focus, _, rfl⟩
  · exact .kept ⟨rfl, rfl, rfl⟩
  · apply MapStep.changed rowsOperation lends
    rw [← changeEq]
    exact SameMap.relayout ⟨rfl, rfl, rfl⟩

theorem mapStep_showSequence (engine : Engine R) (root : NodeId) :
    engine.MapStep (engine.showSequence root).2 := by
  unfold showSequence
  dsimp only
  split
  · exact .left ⟨rfl, rfl, rfl⟩
  · next view lending built =>
      have fitted := sameMap_fitToContent ({ engine.leaveSequence.2 with
        registry := lending, mode := .sequence view, interaction := {} }.rebuildScene)
      exact .shown root built ⟨fitted.registry, fitted.mode, fitted.setup⟩

theorem mapStep_exitSequence (engine : Engine R) : engine.MapStep engine.exitSequence.2 := by
  apply MapStep.left
  unfold exitSequence
  rcases engine.leaveSequence with ⟨shown, after⟩
  cases shown with
  | false => exact ⟨rfl, rfl, rfl⟩
  | true =>
    have fitted := sameMap_fitToContent ({ after with interaction := {} }.rebuildScene)
    exact fitted.trans ⟨rfl, rfl, rfl⟩

theorem mapStep_setPerspective (engine : Engine R) (perspective : Perspective) :
    engine.MapStep (engine.setPerspective perspective).2 := by
  unfold setPerspective
  split
  · exact .kept ⟨rfl, rfl, rfl⟩
  · next differs =>
      refine .emptied (.setPerspective perspective) ⟨rfl, rfl, rfl⟩ ?_
      have perspectiveEq : engine.leaveSequence.2.registry.perspective =
          engine.registry.perspective := by
        unfold leaveSequence
        cases engine.mode <;> rfl
      change (engine.leaveSequence.2.registry.setPerspective perspective).2.layoutNodes = []
      rw [Registry.setPerspective, perspectiveEq, if_neg (Ne.symm differs)]
      rfl

/-- Every operation is a step of one of these kinds. -/
theorem mapStep_of_apply (coherent : engine.registry.Coherent)
    (applied : engine.apply operation = .ok next) :
    engine.MapStep next := by
  by_cases viewing : operation.isViewing = true
  · exact .kept (sameMap_of_viewing viewing applied)
  cases rows : engine.rowsResult? operation with
  | some change =>
    rw [apply_of_rows rows] at applied
    exact Except.ok.inj applied ▸ mapStep_of_rows coherent rows
  | none =>
    cases operation with
    | setPerspective perspective =>
      exact Except.ok.inj applied ▸ mapStep_setPerspective engine perspective
    | setData nodes links =>
      obtain rfl := Except.ok.inj applied
      apply MapStep.replaced nodes links
      exact (sameMap_fitToContent _).trans (SameMap.relayout ⟨rfl, rfl, rfl⟩)
    | addData nodes links =>
      obtain rfl := Except.ok.inj applied
      unfold addData
      dsimp only
      split
      · exact .changed (.addData nodes links) rfl ⟨rfl, rfl, rfl⟩
      · next unchanged =>
          have same := coherent.addData_of_not_changed (Bool.eq_false_iff.mpr unchanged)
          exact .kept ⟨same, rfl, rfl⟩
    | deleteNode id =>
      obtain rfl := Except.ok.inj applied
      unfold deleteNode
      rcases result : engine.registry.deleteNode id with ⟨found, reg⟩
      cases found with
      | false => exact .kept ⟨Registry.deleteNode_eq_of_false result, rfl, rfl⟩
      | true =>
        apply MapStep.changed (.deleteNode id) rfl
        rw [Registry.apply, result]
        exact SameMap.relayout ⟨rfl, rfl, rfl⟩
    | clear =>
      obtain rfl := Except.ok.inj applied
      exact .emptied .clear ⟨rfl, rfl, rfl⟩ rfl
    | focusOnClass classId =>
      obtain rfl := Except.ok.inj applied
      unfold focusOnClass
      by_cases known : engine.registry.classes.contains classId = true
      · apply MapStep.changed (.focusOnClass classId) rfl
        rw [Registry.apply, Registry.focusOnClass, if_pos known]
        exact (sameMap_fitToContent _).trans (SameMap.relayout ⟨rfl, rfl, rfl⟩)
      · rw [Registry.focusOnClass, if_neg known]
        exact .kept ⟨rfl, rfl, rfl⟩
    | showSequence root => exact Except.ok.inj applied ▸ mapStep_showSequence engine root
    | exitSequence => exact Except.ok.inj applied ▸ mapStep_exitSequence engine
    | relayout => exact Except.ok.inj applied ▸ .relaid ⟨rfl, rfl, rfl⟩
    | _ => first | exact absurd rfl viewing | cases rows

/-- Every operation keeps what the diagram is made with. -/
theorem setup_apply (coherent : engine.registry.Coherent)
    (applied : engine.apply operation = .ok next) :
    next.setup = engine.setup := by
  have left := setup_leaveSequence engine
  cases mapStep_of_apply coherent applied with
  | kept same => exact same.setup
  | left same => exact same.setup.trans left
  | shown _ _ same => exact same.setup.trans left
  | emptied _ same _ => exact same.setup.trans left
  | relaid same => exact same.setup.trans (setup_relayout engine)
  | replaced _ _ same => exact same.setup.trans ((setup_relayout _).trans left)
  | changed operation _ same =>
    exact same.setup.trans ((setup_relayout _).trans (setup_leaveSequence _))

end Engine

end CodeAtlas
