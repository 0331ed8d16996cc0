import CodeAtlas.Proofs.Engine.Events
import CodeAtlas.Proofs.Engine.Selection

/-!
# Clicks tell of nodes on the map

Every part of the scene that can be picked is about something on the map, also
while the scene of a call diagram that was given up is left behind.  So an event
that tells of a clicked node tells of a node on the map, and nothing but the
pointer causes such events.
-/

namespace CodeAtlas

variable {R : Type} {reg : Registry R} {engine next : Engine R}

/-- The node that was clicked, if the event tells of one. -/
def Event.node? : Event R → Option NodeId
  | nodeClicked id | nodeRightClicked id _ _ _ | headerClicked id => some id
  | callArrowClicked _ | perspectiveChanged _ | sceneCleared | sequenceEntered _ _
  | sequenceExited => none

variable [Scalar R]

omit [Scalar R] in
theorem Role.Selectable.containsNode {role : Role} {id : NodeId}
    (selectable : role.Selectable reg) (named : role.nodeId? = some id) :
    reg.containsNode id = true := by
  rw [Registry.containsNode_iff]
  cases role with
  | methodRow classId methodId =>
    cases named
    obtain ⟨method, mem, methodId, _⟩ := selectable
    exact Or.inr (Or.inl (methodId ▸ Store.key_mem_keys mem))
  | standalone nodeId =>
    cases named
    exact Or.inr (Or.inr selectable)
  | classBackground classId =>
    cases named
    exact Or.inl selectable
  | classHeader classId =>
    cases named
    exact Or.inl selectable
  | laneHeader lane classId =>
    cases named
    exact Or.inl selectable
  | _ => cases named

namespace Engine

/-! ## What can be clicked -/

/-- Every part that can be picked is about something on a sound map. -/
structure Clickable (engine : Engine R) : Prop where
  sound : engine.Sound
  laned : engine.Laned
  regions : engine.hitTester.regions = engine.scene.hitRegions
  selectable : ∀ region ∈ engine.scene.hitRegions, region.role.Selectable engine.registry

theorem clickable_withLayouter (config : EngineConfig R) (text : TextMetrics R)
    (layouter : Layouter R) (viewport : Vec R) :
    (withLayouter config text layouter viewport).Clickable :=
  ⟨sound_withLayouter config text layouter viewport, laned_of_graph rfl, rfl, nofun⟩

/-- A scene that is built anew is about the map as it is now, one that is kept
about a map that is kept. -/
theorem Clickable.apply (clickable : engine.Clickable) {operation : Operation R}
    (applied : engine.apply operation = .ok next) :
    next.Clickable := by
  have sound := clickable.sound.apply applied
  have laned := clickable.laned.apply clickable.sound applied
  cases sceneStep_of_apply clickable.sound applied with
  | rebuilt _ upToDate _ =>
    exact ⟨sound, laned, upToDate.regions, upToDate.selectable sound.coherent laned⟩
  | abandoned _ _ left =>
    subst left
    have same : engine.leaveSequence.2.scene = engine.scene ∧
        engine.leaveSequence.2.hitTester = engine.hitTester := by
      unfold leaveSequence
      cases engine.mode <;> exact ⟨rfl, rfl⟩
    refine ⟨sound, laned, ?_, ?_⟩
    · rw [same.1, same.2]
      exact clickable.regions
    · rw [same.1]
      exact fun region mem => selectable_leaveSequence (clickable.selectable region mem)
  | kept _ _ same =>
    refine ⟨sound, laned, ?_, ?_⟩
    · rw [same.scene, same.hitTester]
      exact clickable.regions
    · rw [same.scene, same.registry]
      exact clickable.selectable

theorem Clickable.run {start engine : Engine R} (clickable : start.Clickable)
    {operations : List (Operation R)} (ran : start.run operations = .ok engine) :
    engine.Clickable :=
  run_induction clickable (fun _ _ _ _ held applied => held.apply applied) ran

/-! ## What is told -/

/-- The queue has grown by events that meet a condition. -/
def Announces (engine next : Engine R) (what : Event R → Prop) : Prop :=
  ∃ news, next.events.pending = engine.events.pending ++ news ∧ ∀ event ∈ news, what event

section Announcements

variable {engine next final : Engine R} {what : Event R → Prop}

section
omit [Scalar R]

theorem announces_nothing (events : next.events = engine.events) : engine.Announces next what :=
  ⟨[], by rw [events, List.append_nil], by simp⟩

theorem Announces.of_events (announces : engine.Announces next what)
    (events : final.events = next.events) : engine.Announces final what := by
  rw [Announces, events]
  exact announces

theorem Announces.publish (announces : engine.Announces next what) {event : Event R}
    (met : what event) (events : final.events = next.events.publish event) :
    engine.Announces final what := by
  obtain ⟨news, pending, held⟩ := announces
  refine ⟨news ++ [event], ?_, ?_⟩
  · rw [events, EventQueue.publish, pending, List.append_assoc]
  · intro other mem
    rcases List.mem_append.mp mem with told | last
    · exact held other told
    · exact List.mem_singleton.mp last ▸ met

theorem Announces.trans (first : engine.Announces next what)
    (second : next.Announces final what) : engine.Announces final what := by
  obtain ⟨news, pending, held⟩ := first
  obtain ⟨more, finalPending, moreHeld⟩ := second
  refine ⟨news ++ more, by rw [finalPending, pending, List.append_assoc], ?_⟩
  intro event mem
  exact (List.mem_append.mp mem).elim (held event) (moreHeld event)

theorem announces_leaveSequence (engine : Engine R) (met : what .sequenceExited) :
    engine.Announces engine.leaveSequence.2 what := by
  refine ⟨engine.mode.parting, pending_leaveSequence engine, ?_⟩
  cases engine.mode with
  | graph => simp [ViewMode.parting]
  | sequence view => simpa [ViewMode.parting] using met

end

end Announcements

/-- A click that is told is one on a node of the map. -/
def OnMapClick (reg : Registry R) (event : Event R) : Prop :=
  ∀ id, event.node? = some id → reg.containsNode id = true

section

variable (clickable : engine.Clickable)
include clickable

theorem Clickable.announces_click (screen : Vec R) :
    engine.Announces (engine.click screen).2 (OnMapClick engine.registry) := by
  have onMap : ∀ {role : Role} {id : NodeId}, (engine.pick screen).map Hit.role = some role →
      role.nodeId? = some id → engine.registry.containsNode id = true := by
    intro role id picked named
    obtain ⟨region, mem, rfl⟩ := exists_region_of_pick clickable.regions picked
    exact (clickable.selectable region mem).containsNode named
  have told : ∀ {role : Role} {event : Event R} {next : Engine R},
      (engine.pick screen).map Hit.role = some role → event.node? = role.nodeId? →
      next.events = engine.events.publish event →
      engine.Announces next (OnMapClick engine.registry) := by
    intro role event next picked same events
    exact (announces_nothing rfl).publish (fun id named => onMap picked (same ▸ named)) events
  unfold click
  dsimp only
  split
  · next picked => exact told picked rfl rfl
  · next picked => exact told picked rfl rfl
  · next picked => exact told picked rfl rfl
  · next picked => exact told picked rfl rfl
  · next picked => exact told picked rfl rfl
  · next picked =>
      split
      · exact told picked rfl rfl
      · exact announces_nothing rfl
  · exact announces_nothing rfl
  · exact announces_nothing rfl
  · exact announces_nothing rfl

theorem Clickable.announces_rightClick (screen : Vec R) :
    engine.Announces (engine.rightClick screen) (OnMapClick engine.registry) := by
  unfold rightClick
  split
  · exact announces_nothing rfl
  · next id picked =>
      obtain ⟨hit, hitPicked, named⟩ := Option.bind_eq_some_iff.mp picked
      obtain ⟨region, mem, role⟩ := exists_region_of_pick clickable.regions
        (Option.map_eq_some_iff.mpr ⟨hit, hitPicked, rfl⟩)
      have onMap := (clickable.selectable region mem).containsNode (role ▸ named)
      refine (announces_nothing rfl).publish ?_ rfl
      rintro other ⟨⟩
      exact onMap

/-- Pointer input tells of clicks on nodes of the map. -/
theorem Clickable.announces_of_viewing {operation : Operation R}
    (viewing : operation.isViewing = true) (applied : engine.apply operation = .ok next) :
    engine.Announces next (OnMapClick engine.registry) := by
  cases operation with
  | fitToContent =>
    cases applied
    exact announces_nothing (events_fitToContent engine)
  | resize width height =>
    cases applied
    exact announces_nothing rfl
  | pointerDown screen button =>
    cases applied
    exact announces_nothing rfl
  | pointerMove screen =>
    cases applied
    unfold pointerMove
    dsimp only
    split <;> exact announces_nothing rfl
  | pointerUp screen button =>
    cases applied
    have lifted : Clickable { engine with pointer := (engine.pointer.up screen button).2 } :=
      ⟨clickable.sound.of_same rfl rfl, clickable.laned, clickable.regions, clickable.selectable⟩
    unfold pointerUp
    dsimp only
    split
    · exact lifted.announces_click _
    · exact lifted.announces_rightClick _
    · exact announces_nothing rfl
  | pointerLeave =>
    cases applied
    exact announces_nothing rfl
  | wheel screen notches =>
    obtain ⟨camera, rfl⟩ := apply_wheel_eq applied
    exact announces_nothing rfl
  | _ => cases viewing

theorem Clickable.announces_of_looking {operations : List (Operation R)}
    (viewing : ∀ operation ∈ operations, operation.isViewing = true)
    (ran : engine.run operations = .ok next) :
    next.registry = engine.registry ∧ engine.Announces next (OnMapClick engine.registry) := by
  let Told := fun next : Engine R => next.Clickable ∧ next.registry = engine.registry ∧
    engine.Announces next (OnMapClick engine.registry)
  have told : Told next := by
    apply run_induction (motive := Told) ⟨clickable, rfl, announces_nothing rfl⟩ ?_ ran
    rintro before after operation mem ⟨held, reg, announces⟩ applied
    have more := held.announces_of_viewing (viewing operation mem) applied
    rw [reg] at more
    exact ⟨held.apply applied,
      (sameView_of_viewing (viewing operation mem) applied).registry.trans reg,
      announces.trans more⟩
  exact told.2

end

theorem announces_showSequence (engine : Engine R) (root : NodeId) :
    engine.Announces (engine.showSequence root).2 fun event => event.node? = none := by
  unfold showSequence
  dsimp only
  split
  · exact announces_leaveSequence engine rfl
  · next view lending built =>
      let shown := { engine.leaveSequence.2 with
        registry := lending, mode := .sequence view, interaction := {} }.rebuildScene
      have left : engine.Announces shown fun event => event.node? = none :=
        announces_leaveSequence engine rfl
      exact (left.of_events (events_fitToContent shown)).publish rfl rfl

theorem announces_exitSequence (engine : Engine R) :
    engine.Announces engine.exitSequence.2 fun event => event.node? = none := by
  have leaving : engine.Announces engine.leaveSequence.2 fun event => event.node? = none :=
    announces_leaveSequence engine rfl
  unfold exitSequence
  rcases left : engine.leaveSequence with ⟨shown, after⟩
  rw [left] at leaving
  cases shown with
  | false => exact leaving
  | true => exact leaving.of_events (events_fitToContent _)

/-- Whatever else is asked of the diagram tells of no click. -/
theorem announces_of_asking {operation : Operation R} (asking : operation.isViewing = false)
    (applied : engine.apply operation = .ok next) :
    engine.Announces next fun event => event.node? = none := by
  -- Everything that is changed leaves a call diagram first.
  have left : ∀ reg, engine.Announces { engine with registry := reg }.leaveSequence.2
      fun event => event.node? = none :=
    fun reg => announces_leaveSequence { engine with registry := reg } rfl
  cases rows : engine.rowsResult? operation with
  | some change =>
    rw [apply_of_rows rows] at applied
    obtain rfl := Except.ok.inj applied
    rcases change with ⟨changed, reg⟩
    cases changed with
    | false => exact announces_nothing rfl
    | true => exact (left reg).of_events (events_relayout _)
  | none =>
    cases operation with
    | setPerspective perspective =>
      obtain rfl := Except.ok.inj applied
      unfold setPerspective
      split
      · exact announces_nothing rfl
      · exact (left engine.registry).publish rfl rfl
    | setData nodes links =>
      obtain rfl := Except.ok.inj applied
      exact (left engine.registry).of_events
        ((events_fitToContent _).trans (events_relayout _))
    | addData nodes links =>
      obtain rfl := Except.ok.inj applied
      unfold addData
      dsimp only
      split
      · exact (left _).of_events (events_relayout _)
      · exact announces_nothing rfl
    | deleteNode id =>
      obtain rfl := Except.ok.inj applied
      unfold deleteNode
      rcases engine.registry.deleteNode id with ⟨found, reg⟩
      cases found with
      | false => exact announces_nothing rfl
      | true => exact (left reg).of_events (events_relayout _)
    | clear =>
      obtain rfl := Except.ok.inj applied
      exact (left engine.registry).publish rfl rfl
    | focusOnClass classId =>
      obtain rfl := Except.ok.inj applied
      unfold focusOnClass
      rcases engine.registry.focusOnClass classId with ⟨found, reg⟩
      cases found with
      | false => exact announces_nothing rfl
      | true =>
        exact (left reg).of_events ((events_fitToContent _).trans (events_relayout _))
    | showSequence root => exact Except.ok.inj applied ▸ announces_showSequence engine root
    | exitSequence => exact Except.ok.inj applied ▸ announces_exitSequence engine
    | relayout => exact Except.ok.inj applied ▸ announces_nothing (events_relayout engine)
    | _ => first | exact Bool.noConfusion asking | cases rows

end Engine

end CodeAtlas
