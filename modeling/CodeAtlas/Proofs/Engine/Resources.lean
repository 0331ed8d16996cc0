import CodeAtlas.Proofs.Engine.Run
import CodeAtlas.Proofs.Registry.Settled
import CodeAtlas.Proofs.Sequence

/-!
# Who owns which resource of a diagram

The live resources are exactly those in the slots of the map and, while one is
shown, of the call diagram.  No operation leaks a resource, leaves a slot
dangling or lets two slots share one.
-/

namespace CodeAtlas

variable {R : Type} [Scalar R] {engine next : Engine R}

namespace Engine

/-- The slots of the call diagram, if one is shown. -/
def lent (engine : Engine R) : List Slot :=
  match engine.mode with
  | .graph => []
  | .sequence view => view.slots

/-- All slots of a diagram. -/
def owned (engine : Engine R) : List Slot :=
  engine.registry.slots ++ engine.lent

/-- The map is coherent and settled, and the pool holds what is owned. -/
structure Sound (engine : Engine R) : Prop where
  coherent : engine.registry.Coherent
  settled : engine.registry.Settled
  balanced : engine.registry.Balanced engine.lent

omit [Scalar R] in
/-- Only the registry and the mode matter. -/
theorem Sound.of_same (sound : engine.Sound) (reg : next.registry = engine.registry)
    (mode : next.mode = engine.mode) :
    next.Sound := by
  have lentEq : next.lent = engine.lent := by rw [lent, lent, mode]
  constructor
  · rw [reg]
    exact sound.coherent
  · rw [reg]
    exact sound.settled
  · rw [reg, lentEq]
    exact sound.balanced

theorem sound_withLayouter (config : EngineConfig R) (text : TextMetrics R)
    (layouter : Layouter R) (viewport : Vec R) :
    (withLayouter config text layouter viewport).Sound :=
  ⟨Registry.coherent_create _ _ _, Registry.settled_of_empty rfl rfl,
    Registry.balanced_create _ _ _⟩

/-! ## Parts of operations -/

/-- A call diagram gives its labels back when it goes. -/
theorem Sound.leaveSequence (sound : engine.Sound) :
    engine.leaveSequence.2.Sound := by
  unfold Engine.leaveSequence
  cases mode : engine.mode with
  | graph => exact sound
  | sequence view =>
    have balanced : engine.registry.Balanced view.slots := by
      have kept := sound.balanced
      rw [lent, mode] at kept
      exact kept
    constructor
    · exact sound.coherent.of_bare_eq rfl
    · exact sound.settled.of_subset (fun _ mem => mem) (fun _ mem => mem) fun _ mem => mem
    · have released : (view.release engine.registry.pool).Holds engine.registry.slots :=
        Pool.Holds.releaseAll (Pool.Holds.of_perm balanced List.perm_append_comm)
      change (view.release engine.registry.pool).Holds (engine.registry.slots ++ [])
      rw [List.append_nil]
      exact released

omit [Scalar R] in
theorem mode_leaveSequence (engine : Engine R) : engine.leaveSequence.2.mode = .graph := by
  unfold Engine.leaveSequence
  cases mode : engine.mode with
  | graph => exact mode
  | sequence view => rfl

/-- A layout places the boxes, routes the edges and builds the scene; the map is
the same apart from what is shown. -/
theorem relayout_eq (engine : Engine R) :
    ∃ reg, engine.relayout = { engine with registry := reg }.rebuildScene ∧
      reg.bare = engine.registry.bare ∧
      (engine.registry.Settled → reg.Settled) ∧
      ∀ lent, engine.registry.Balanced lent → reg.Balanced lent := by
  unfold Engine.relayout
  dsimp only
  split
  · exact ⟨engine.registry, rfl, rfl, fun settled => settled, fun _ balanced => balanced⟩
  · refine ⟨_, rfl, ?_, ?_, ?_⟩
    · rw [Registry.bare_updateEdgeGeometry, Registry.bare_applyPositions]
    · exact fun settled => (settled.applyPositions _).updateEdgeGeometry
    · exact fun _ balanced => (balanced.applyPositions _).updateEdgeGeometry

theorem mode_relayout (engine : Engine R) : engine.relayout.mode = engine.mode := by
  obtain ⟨reg, relayoutEq, _⟩ := engine.relayout_eq
  rw [relayoutEq]
  rfl

theorem bare_relayout (engine : Engine R) :
    engine.relayout.registry.bare = engine.registry.bare := by
  obtain ⟨reg, relayoutEq, bareEq, _⟩ := engine.relayout_eq
  rw [relayoutEq]
  exact bareEq

theorem Sound.relayout (sound : engine.Sound) : engine.relayout.Sound := by
  obtain ⟨reg, relayoutEq, bareEq, settled, balanced⟩ := engine.relayout_eq
  rw [relayoutEq]
  exact ⟨sound.coherent.of_bare_eq bareEq, settled sound.settled, balanced _ sound.balanced⟩

theorem Sound.fitToContent (sound : engine.Sound) :
    engine.fitToContent.2.Sound :=
  sound.of_same (sameView_fitToContent engine).registry (sameView_fitToContent engine).mode

omit [Scalar R] in
theorem sound_of_graph (mode : engine.mode = .graph) (coherent : engine.registry.Coherent)
    (settled : engine.registry.Settled)
    (balanced : engine.registry.Balanced []) : engine.Sound := by
  refine ⟨coherent, settled, ?_⟩
  rw [lent, mode]
  exact balanced

omit [Scalar R] in
theorem Sound.balanced_of_graph (sound : engine.Sound)
    (mode : engine.mode = .graph) : engine.registry.Balanced [] := by
  have kept := sound.balanced
  rw [lent, mode] at kept
  exact kept

/-! ## Operations -/

theorem Sound.setPerspective (sound : engine.Sound)
    (perspective : Perspective) : (engine.setPerspective perspective).2.Sound := by
  unfold Engine.setPerspective
  split
  · exact sound
  · have left := sound.leaveSequence
    have mode := mode_leaveSequence engine
    exact sound_of_graph mode (left.coherent.setPerspective perspective)
      (left.settled.setPerspective perspective)
      ((left.balanced_of_graph mode).setPerspective perspective)

theorem sound_setData (engine : Engine R) (nodes : List Node)
    (links : List Relationship) : (engine.setData nodes links).2.Sound := by
  apply Sound.fitToContent
  apply Sound.relayout
  exact sound_of_graph (mode_leaveSequence engine) (Registry.coherent_setData _ _ _)
    ((Registry.settled_clear _).addData (Registry.coherent_clear _) _ _)
    (Registry.balanced_setData _ _ _)

theorem Sound.addData (sound : engine.Sound) (nodes : List Node)
    (links : List Relationship) : (engine.addData nodes links).2.Sound := by
  have added : Sound { engine with registry := (engine.registry.addData nodes links).2 } :=
    ⟨sound.coherent.addData _ _, sound.settled.addData sound.coherent _ _,
      sound.balanced.addData sound.coherent _ _⟩
  unfold Engine.addData
  dsimp only
  split
  · exact added.leaveSequence.relayout
  · exact added

theorem Sound.deleteNode (sound : engine.Sound) (id : NodeId) :
    (engine.deleteNode id).2.Sound := by
  have deleted : Sound { engine with registry := (engine.registry.deleteNode id).2 } :=
    ⟨sound.coherent.deleteNode id, sound.settled.deleteNode sound.coherent id,
      sound.balanced.deleteNode sound.coherent id⟩
  unfold Engine.deleteNode
  rcases result : engine.registry.deleteNode id with ⟨found, reg⟩
  rw [result] at deleted
  cases found with
  | false => exact deleted
  | true =>
    apply Sound.relayout
    exact deleted.leaveSequence.of_same rfl rfl

theorem sound_clear (engine : Engine R) : engine.clear.Sound := by
  apply sound_of_graph
  · exact mode_leaveSequence engine
  · exact Registry.coherent_clear _
  · exact Registry.settled_clear _
  · exact Registry.balanced_clear _

section

variable (sound : engine.Sound)
include sound

theorem Sound.focusOnClass (classId : NodeId) : (engine.focusOnClass classId).2.Sound := by
  have focused : Sound { engine with registry := (engine.registry.focusOnClass classId).2 } :=
    ⟨sound.coherent.focusOnClass classId, sound.settled.focusOnClass sound.coherent classId,
      sound.balanced.focusOnClass sound.coherent classId⟩
  unfold Engine.focusOnClass
  rcases result : engine.registry.focusOnClass classId with ⟨found, reg⟩
  rw [result] at focused
  cases found with
  | false => exact focused
  | true =>
    apply Sound.fitToContent
    apply Sound.relayout
    exact focused.leaveSequence.of_same rfl rfl

theorem Sound.withRows {change : Bool × Registry R} (rows : engine.registry.RowsChange change) :
    (engine.withRows change).2.Sound := by
  have changed : Sound { engine with registry := change.2 } :=
    ⟨sound.coherent.rowsChange rows, sound.settled.rowsChange sound.coherent rows,
      sound.balanced.rowsChange sound.coherent rows⟩
  rcases change with ⟨found, reg⟩
  cases found with
  | false => exact changed
  | true =>
    apply Sound.relayout
    exact changed.leaveSequence.of_same rfl rfl

/-- A call diagram takes its labels from the pool when it comes. -/
theorem Sound.showSequence (root : NodeId) : (engine.showSequence root).2.Sound := by
  have left := sound.leaveSequence
  have balanced := left.balanced_of_graph (mode_leaveSequence engine)
  rw [Registry.Balanced, List.append_nil] at balanced
  unfold Engine.showSequence
  dsimp only
  rcases SequenceView.build_cases engine.leaveSequence.2.registry root
      engine.leaveSequence.2.config.sequence engine.leaveSequence.2.config.interaction with
    ⟨_, failed⟩ | ⟨_, view, pool, _, built, _, _, holds⟩
  · rw [failed]
    exact left
  · rw [built]
    have shown : Sound { engine.leaveSequence.2 with
        registry := { engine.leaveSequence.2.registry with pool }, mode := .sequence view } := by
      constructor
      · exact left.coherent.of_bare_eq rfl
      · exact left.settled.of_subset (fun _ mem => mem) (fun _ mem => mem) fun _ mem => mem
      · exact (holds _ balanced).of_perm List.perm_append_comm
    have rebuilt : Sound ({ engine.leaveSequence.2 with
        registry := { engine.leaveSequence.2.registry with pool }
        mode := .sequence view
        interaction := {} }.rebuildScene) :=
      shown.of_same rfl rfl
    exact rebuilt.fitToContent.of_same rfl rfl

theorem Sound.exitSequence : engine.exitSequence.2.Sound := by
  have left := sound.leaveSequence
  unfold Engine.exitSequence
  rcases result : engine.leaveSequence with ⟨shown, after⟩
  rw [result] at left
  cases shown with
  | false => exact left
  | true =>
    apply Sound.fitToContent
    exact left.of_same rfl rfl

/-- Every operation keeps a diagram sound. -/
theorem Sound.apply {operation : Operation R} (applied : engine.apply operation = .ok next) :
    next.Sound := by
  by_cases viewing : operation.isViewing = true
  · have same := sameView_of_viewing viewing applied
    exact sound.of_same same.registry same.mode
  cases rows : engine.rowsResult? operation with
  | some change =>
    rw [apply_of_rows rows] at applied
    exact Except.ok.inj applied ▸ sound.withRows (rowsChange_of_rows sound.coherent rows)
  | none =>
    cases operation with
    | setPerspective perspective => exact Except.ok.inj applied ▸ sound.setPerspective perspective
    | setData nodes links =>
      exact Except.ok.inj applied ▸ sound_setData engine nodes links
    | addData nodes links =>
      exact Except.ok.inj applied ▸ sound.addData nodes links
    | deleteNode id => exact Except.ok.inj applied ▸ sound.deleteNode id
    | clear => exact Except.ok.inj applied ▸ sound_clear engine
    | focusOnClass classId => exact Except.ok.inj applied ▸ sound.focusOnClass classId
    | showSequence root => exact Except.ok.inj applied ▸ sound.showSequence root
    | exitSequence => exact Except.ok.inj applied ▸ sound.exitSequence
    | relayout => exact Except.ok.inj applied ▸ sound.relayout
    | _ => first | exact absurd rfl viewing | cases rows

end

theorem Sound.run {start engine : Engine R} (sound : start.Sound)
    {operations : List (Operation R)} (ran : start.run operations = .ok engine) : engine.Sound :=
  run_induction sound (fun _ _ _ _ held applied => held.apply applied) ran

/-- New data go through a layout, which changes nothing but what is shown. -/
theorem bare_setData (engine : Engine R) (nodes : List Node) (links : List Relationship) :
    (engine.setData nodes links).2.registry.bare =
      (engine.leaveSequence.2.registry.setData nodes links).2.bare := by
  have fitted := sameView_fitToContent ({ engine.leaveSequence.2 with
    registry := (engine.leaveSequence.2.registry.setData nodes links).2
    interaction := {} }.relayout)
  exact (congrArg Registry.bare fitted.registry).trans (bare_relayout _)

theorem keys_sample :
    (sampleStart.setData sampleNodes sampleClaims).2.registry.classes.keys = ["class"] ∧
      (sampleStart.setData sampleNodes sampleClaims).2.registry.methods.keys = ["method"] := by
  have cleared := Registry.coherent_clear sampleStart.leaveSequence.2.registry
  obtain ⟨classes, methods⟩ := cleared.keys_addData rfl sampleNodes sampleClaims
  rw [← Registry.keys_bare_classes, ← Registry.keys_bare_methods, bare_setData,
    Registry.keys_bare_classes, Registry.keys_bare_methods, Registry.setData, classes, methods]
  decide

/-- After every run of a new diagram: a resource is live, and of some kind,
exactly if some slot expects it to be; no two slots share a resource; there are
as many resources as slots; and every box has its label and its outline. -/
theorem pool_holds_owned_after_run (config : EngineConfig R) (text : TextMetrics R)
    (layouter : Layouter R) (viewport : Vec R) (operations : List (Operation R))
    {engine : Engine R}
    (ran : (withLayouter config text layouter viewport).run operations = .ok engine) :
    (∀ id kind, (engine.pool.get? id).map Resource.kind = some kind ↔
      (id, kind) ∈ engine.owned) ∧
    (engine.owned.map Prod.fst).Nodup ∧
    engine.pool.size = engine.owned.length ∧
    (∀ node ∈ engine.registry.classes.items,
      node.headerLabel.isSome = true ∧ node.outline.isSome = true) ∧
    (∀ node ∈ engine.registry.standalone.items,
      node.label.isSome = true ∧ node.outline.isSome = true) := by
  have sound := (sound_withLayouter config text layouter viewport).run ran
  have holds : engine.pool.Holds engine.owned := sound.balanced
  exact ⟨fun _ _ => holds.get?_iff, holds.distinct, holds.size,
    fun node mem => sound.settled.boxes node mem List.not_mem_nil, sound.settled.standalone⟩

/-- Calls are shown twice and given up before their class is deleted. -/
theorem pool_holds_owned_sample :
    ∃ engine, sampleStart.run [.setData sampleNodes sampleClaims, .showSequence "method",
        .showSequence "method", .showSequence "unknown", .deleteNode "class"] = .ok engine ∧
      (∀ id kind, (engine.pool.get? id).map Resource.kind = some kind ↔
        (id, kind) ∈ engine.owned) ∧
      (engine.owned.map Prod.fst).Nodup ∧ engine.pool.size = engine.owned.length := by
  obtain ⟨engine, ran⟩ : ∃ engine, sampleStart.run [.setData sampleNodes sampleClaims,
      .showSequence "method", .showSequence "method", .showSequence "unknown",
      .deleteNode "class"] = .ok engine :=
    ⟨_, rfl⟩
  obtain ⟨live, distinct, size, _⟩ := pool_holds_owned_after_run .standard _ _ _ _ ran
  exact ⟨engine, ran, live, distinct, size⟩

end Engine

end CodeAtlas
