import CodeAtlas.Proofs.Registry.Departure
import CodeAtlas.Proofs.Viewer.Moves

/-!
# What an action does

An action asks the diagram for something, and it can make the viewer forget the
node that was clicked last.  No action opens or closes the menu, and none tells
of a click.
-/

namespace CodeAtlas

variable {R : Type} [Scalar R] {engine next : Engine R}

/-! ## The map after an operation -/

namespace Engine

theorem bare_fitToContent (engine : Engine R) :
    engine.fitToContent.2.registry.bare = engine.registry.bare :=
  congrArg Registry.bare (sameView_fitToContent engine).registry

theorem containsNode_deleteNode (engine : Engine R) (other id : NodeId) :
    (engine.deleteNode other).2.registry.containsNode id =
      (engine.registry.deleteNode other).2.containsNode id := by
  unfold deleteNode
  rcases engine.registry.deleteNode other with ⟨found, reg⟩
  cases found with
  | false => rfl
  | true => exact Registry.containsNode_of_bare_eq (bare_revised engine reg _) id

theorem containsNode_focusOnClass (engine : Engine R) (classId id : NodeId) :
    (engine.focusOnClass classId).2.registry.containsNode id =
      (engine.registry.focusOnClass classId).2.containsNode id := by
  unfold focusOnClass
  rcases engine.registry.focusOnClass classId with ⟨found, reg⟩
  cases found with
  | false => rfl
  | true =>
    exact Registry.containsNode_of_bare_eq
      ((bare_fitToContent _).trans (bare_revised engine reg _)) id

theorem bare_showSequence (sound : engine.Sound) (root : NodeId) :
    (engine.showSequence root).2.registry.bare = engine.registry.bare := by
  rcases showSequence_cases sound root with ⟨_, left⟩ | ⟨_, next, shown, _, _, _, same, _⟩
  · rw [left]
    exact bare_leaveSequence engine
  · rw [shown]
    exact same

theorem bare_exitSequence (engine : Engine R) :
    engine.exitSequence.2.registry.bare = engine.registry.bare := by
  have leaving := bare_leaveSequence engine
  unfold exitSequence
  rcases left : engine.leaveSequence with ⟨shown, after⟩
  rw [left] at leaving
  cases shown with
  | false => exact leaving
  | true => exact (bare_fitToContent _).trans leaving

/-- A map is empty in another perspective. -/
theorem containsNode_setPerspective {perspective : Perspective}
    (differs : perspective ≠ engine.registry.perspective) (id : NodeId) :
    (engine.setPerspective perspective).2.registry.containsNode id = false := by
  have left : engine.leaveSequence.2.registry.perspective = engine.registry.perspective := by
    change engine.leaveSequence.2.registry.bare.perspective = engine.registry.bare.perspective
    rw [bare_leaveSequence]
  have emptied : (engine.setPerspective perspective).2.registry =
      { engine.leaveSequence.2.registry.clear with perspective } := by
    rw [setPerspective, if_neg differs]
    change (engine.leaveSequence.2.registry.setPerspective perspective).2 = _
    rw [Registry.setPerspective, left, if_neg differs.symm]
  rw [emptied]
  rfl

end Engine

/-- What an action asks of the diagram, if it takes no node off the map and brings
none. -/
def Action.sparing? : Action → Option (Engine.Operation R)
  | .setToggle classId toggle enabled => some (.setToggle classId toggle enabled)
  | .focusMethod id => some (.focusMethod id)
  | .restoreMethods id => some (.restoreMethods id)
  | .showSequence id => some (.showSequence id)
  | .exitSequence => some .exitSequence
  | .fit => some .fitToContent
  | .openPayload _ | .setPerspective _ | .isolate _ | .delete _ | .clear => none

namespace Engine

theorem containsNode_of_sparing (sound : engine.Sound) {action : Action} {operation : Operation R}
    (sparing : action.sparing? = some operation) (applied : engine.apply operation = .ok next)
    (id : NodeId) :
    next.registry.containsNode id = engine.registry.containsNode id := by
  cases rows : engine.rowsResult? operation with
  | some change =>
    rw [apply_of_rows rows] at applied
    obtain rfl := Except.ok.inj applied
    have rowsChange := rowsChange_of_rows sound.coherent rows
    rw [Registry.containsNode_of_bare_eq (bare_withRows engine change),
      rowsChange.containsNode sound.coherent]
  | none =>
    apply Registry.containsNode_of_bare_eq
    cases action with
    | showSequence root =>
      cases sparing
      exact Except.ok.inj applied ▸ bare_showSequence sound root
    | exitSequence =>
      cases sparing
      exact Except.ok.inj applied ▸ bare_exitSequence engine
    | fit =>
      cases sparing
      exact Except.ok.inj applied ▸ bare_fitToContent engine
    | _ => cases sparing <;> cases rows

/-! ## Requests -/

/-- One diagram comes of another by requests: what can be clicked stays on the
map, and no click is told. -/
structure Obeys (engine next : Engine R) : Prop where
  clickable : engine.Clickable → next.Clickable
  announces : engine.Announces next fun event => event.node? = none

omit [Scalar R] in
theorem obeys_of_eq (same : next = engine) :
    engine.Obeys next := by
  subst same
  exact ⟨id, announces_nothing rfl⟩

theorem obeys_of_asking (operation : Operation R) (asking : operation.isViewing = false)
    (applied : engine.apply operation = .ok next) :
    engine.Obeys next :=
  ⟨fun clickable => clickable.apply applied, announces_of_asking asking applied⟩

omit [Scalar R] in
theorem Obeys.trans {engine next final : Engine R} (first : engine.Obeys next)
    (second : next.Obeys final) : engine.Obeys final :=
  ⟨second.clickable ∘ first.clickable, first.announces.trans second.announces⟩

theorem obeys_of_sparing {action : Action} {operation : Operation R}
    (sparing : action.sparing? = some operation)
    (applied : engine.apply operation = .ok next) : engine.Obeys next := by
  refine ⟨fun clickable => clickable.apply applied, ?_⟩
  cases action with
  | fit =>
    cases sparing
    cases applied
    exact announces_nothing (events_fitToContent engine)
  | _ => first | cases sparing; exact announces_of_asking rfl applied | cases sparing

end Engine

namespace Viewer

/-! ## What an action does -/

/-- What an action does to the diagram, the payload and the click that is
remembered. -/
inductive ActionStep (files : FileReader) (viewer next : Viewer R) : Action → Prop
  | refused {path : PathName} {failure : InputFailure}
      (read : Payload.read files path = .error failure) (engine : next.engine = viewer.engine)
      (payload : next.payload = viewer.payload) (clicked : next.clicked = viewer.clicked) :
      ActionStep files viewer next (.openPayload path)
  | opened {path : PathName} {payload : Payload} (read : Payload.read files path = .ok payload)
      (engine : next.engine = (viewer.engine.setPayload payload).2)
      (shows : next.payload = some payload) (clicked : next.clicked = none) :
      ActionStep files viewer next (.openPayload path)
  | unchanged {perspective : Perspective} (same : perspective = viewer.engine.registry.perspective)
      (engine : next.engine = viewer.engine) (payload : next.payload = viewer.payload)
      (clicked : next.clicked = viewer.clicked) :
      ActionStep files viewer next (.setPerspective perspective)
  | emptied {perspective : Perspective} (differs : perspective ≠ viewer.engine.registry.perspective)
      (closed : viewer.payload = none)
      (engine : next.engine = (viewer.engine.setPerspective perspective).2)
      (payload : next.payload = viewer.payload) (clicked : next.clicked = viewer.clicked) :
      ActionStep files viewer next (.setPerspective perspective)
  | reshown {perspective : Perspective} {payload : Payload}
      (differs : perspective ≠ viewer.engine.registry.perspective)
      (before : viewer.payload = some payload)
      (engine : next.engine = ((viewer.engine.setPerspective perspective).2.setPayload payload).2)
      (shows : next.payload = some payload) (clicked : next.clicked = none) :
      ActionStep files viewer next (.setPerspective perspective)
  | isolated {classId : NodeId} (engine : next.engine = (viewer.engine.focusOnClass classId).2)
      (payload : next.payload = viewer.payload) (clicked : next.clicked = viewer.clicked) :
      ActionStep files viewer next (.isolate classId)
  | deleted {id : NodeId} (engine : next.engine = (viewer.engine.deleteNode id).2)
      (payload : next.payload = viewer.payload)
      (clicked : next.clicked =
        if viewer.engine.registry.containsNode id && viewer.clicked = some id then none
        else viewer.clicked) :
      ActionStep files viewer next (.delete id)
  | cleared (engine : next.engine = viewer.engine.clear) (payload : next.payload = none)
      (clicked : next.clicked = none) : ActionStep files viewer next .clear
  | spared {action : Action} {operation : Engine.Operation R}
      (sparing : action.sparing? = some operation)
      (applied : viewer.engine.apply operation = .ok next.engine)
      (payload : next.payload = viewer.payload) (clicked : next.clicked = viewer.clicked) :
      ActionStep files viewer next action

section

variable (files : FileReader) (viewer : Viewer R)

theorem actionStep_setPerspective (perspective : Perspective) :
    viewer.ActionStep files (viewer.apply files (.setPerspective perspective))
      (.setPerspective perspective) := by
  rw [apply]
  by_cases same : perspective = viewer.engine.registry.perspective
  · have unchanged : viewer.engine.setPerspective perspective = (false, viewer.engine) := by
      rw [Engine.setPerspective, if_pos same]
    rw [unchanged]
    exact .unchanged same rfl rfl rfl
  · have changed : viewer.engine.setPerspective perspective =
        (true, (viewer.engine.setPerspective perspective).2) := by
      rw [Engine.setPerspective, if_neg same]
    rw [changed]
    cases before : viewer.payload with
    | none => exact .emptied same before rfl before.symm rfl
    | some payload => exact .reshown same before rfl rfl rfl

theorem actionStep_of_apply (action : Action) :
    viewer.ActionStep files (viewer.apply files action) action := by
  cases action with
  | openPayload path =>
    rw [apply, openPayload]
    cases read : Payload.read files path with
    | error failure => exact .refused read rfl rfl rfl
    | ok payload => exact .opened read rfl rfl rfl
  | setPerspective perspective => exact actionStep_setPerspective files viewer perspective
  | isolate classId => exact .isolated rfl rfl rfl
  | delete id =>
    have found : (viewer.engine.deleteNode id).1 = viewer.engine.registry.containsNode id := by
      rw [← Registry.deleteNode_fst, Engine.deleteNode]
      rcases viewer.engine.registry.deleteNode id with ⟨found, reg⟩
      cases found <;> rfl
    refine .deleted rfl rfl ?_
    rw [← found]
    rfl
  | clear => exact .cleared rfl rfl rfl
  | showSequence id =>
    have applied : viewer.engine.apply (.showSequence id) =
        .ok (viewer.apply files (.showSequence id)).engine := by
      rw [Engine.apply, apply]
      rcases viewer.engine.showSequence id with ⟨shown, engine⟩
      cases shown <;> rfl
    refine .spared rfl applied ?_ ?_
    all_goals
      rw [apply]
      rcases viewer.engine.showSequence id with ⟨shown, engine⟩
      cases shown <;> rfl
  | setToggle classId toggle enabled => exact .spared rfl rfl rfl rfl
  | focusMethod id => exact .spared rfl rfl rfl rfl
  | restoreMethods id => exact .spared rfl rfl rfl rfl
  | exitSequence => exact .spared rfl rfl rfl rfl
  | fit => exact .spared rfl rfl rfl rfl

/-- No action opens or closes the menu. -/
theorem menu_apply (action : Action) : (viewer.apply files action).menu = viewer.menu := by
  cases action with
  | openPayload path =>
    rw [apply, openPayload]
    cases Payload.read files path <;> rfl
  | setPerspective perspective =>
    rw [apply]
    rcases viewer.engine.setPerspective perspective with ⟨changed, engine⟩
    cases changed with
    | false => rfl
    | true => cases before : viewer.payload <;> rfl
  | showSequence id =>
    rw [apply]
    rcases viewer.engine.showSequence id with ⟨shown, engine⟩
    cases shown <;> rfl
  | _ => rfl

/-- An action makes the viewer forget at most. -/
theorem remembered_of_apply (action : Action) {memory : Memory} {id : NodeId}
    (recalled : (viewer.apply files action).remembered memory = some id) :
    viewer.remembered memory = some id := by
  cases memory with
  | menu =>
    rw [remembered, menu_apply] at recalled
    exact recalled
  | clicked =>
    rw [remembered] at recalled
    cases actionStep_of_apply files viewer action with
    | refused _ _ _ clicked => exact clicked.symm.trans recalled
    | unchanged _ _ _ clicked => exact clicked.symm.trans recalled
    | emptied _ _ _ _ clicked => exact clicked.symm.trans recalled
    | isolated _ _ clicked => exact clicked.symm.trans recalled
    | spared _ _ _ clicked => exact clicked.symm.trans recalled
    | opened _ _ _ clicked =>
      rw [clicked] at recalled
      cases recalled
    | reshown _ _ _ _ clicked =>
      rw [clicked] at recalled
      cases recalled
    | cleared _ _ clicked =>
      rw [clicked] at recalled
      cases recalled
    | deleted _ _ clicked =>
      rw [clicked] at recalled
      split at recalled
      · cases recalled
      · exact recalled

end

theorem ActionStep.obeys {files : FileReader} {viewer next : Viewer R} {action : Action}
    (step : viewer.ActionStep files next action) : viewer.engine.Obeys next.engine := by
  cases step with
  | refused _ engine _ _ => exact Engine.obeys_of_eq engine
  | unchanged _ engine _ _ => exact Engine.obeys_of_eq engine
  | opened _ engine _ _ => exact Engine.obeys_of_asking (.setData _ _) rfl (congrArg _ engine.symm)
  | emptied _ _ engine _ _ =>
    exact Engine.obeys_of_asking (.setPerspective _) rfl (congrArg _ engine.symm)
  | reshown _ _ engine _ _ =>
    exact (Engine.obeys_of_asking (.setPerspective _) rfl rfl).trans
      (Engine.obeys_of_asking (.setData _ _) rfl (congrArg _ engine.symm))
  | isolated engine _ _ =>
    exact Engine.obeys_of_asking (.focusOnClass _) rfl (congrArg _ engine.symm)
  | deleted engine _ _ => exact Engine.obeys_of_asking (.deleteNode _) rfl (congrArg _ engine.symm)
  | cleared engine _ _ => exact Engine.obeys_of_asking .clear rfl (congrArg _ engine.symm)
  | spared sparing applied _ _ => exact Engine.obeys_of_sparing sparing applied

end Viewer

end CodeAtlas
