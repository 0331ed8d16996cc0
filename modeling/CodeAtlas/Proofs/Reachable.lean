import CodeAtlas.Proofs.Engine.Step

/-!
# Reachable registries

A registry is asked for changes by itself or below a diagram, and below a
diagram it also lends labels to the calls that are shown.  Its reachable states
are told by what can happen to it, so that whatever every one of these steps
keeps holds on its own and in every run of a diagram.
-/

namespace CodeAtlas

variable {R : Type} [Scalar R] {reg : Registry R} {engine next : Engine R}

namespace Registry

/-- The states of a registry, with the call diagram that is drawn over it.  A
call diagram is given back before the map is emptied and before the next one is
drawn. -/
inductive Reachable : Registry R → Option (SequenceView R) → Prop where
  | create (metrics : NodeMetrics R) (toggles : Toggles) (text : TextMetrics R) :
      Reachable (create metrics toggles text) none
  | operate {reg : Registry R} {drawn : Option (SequenceView R)}
      (reachable : Reachable reg drawn) (operation : Operation R)
      (lends : drawn = none ∨ operation.empties = false) :
      Reachable (reg.apply operation) drawn
  | draw {reg lending : Registry R} {view : SequenceView R}
      (reachable : Reachable reg none) (root : NodeId) (settings : SequenceSettings R)
      (interaction : InteractionSettings R)
      (built : SequenceView.build reg root settings interaction = some (view, lending)) :
      Reachable lending (some view)
  | giveBack {reg : Registry R} {view : SequenceView R}
      (reachable : Reachable reg (some view)) :
      Reachable { reg with pool := view.release reg.pool } none

/-! ## What every step keeps -/

/-- Drawing calls changes nothing of the registry but the pool. -/
theorem eq_of_build {reg lending : Registry R} {root : NodeId}
    {settings : SequenceSettings R} {interaction : InteractionSettings R} {view : SequenceView R}
    (built : SequenceView.build reg root settings interaction = some (view, lending)) :
    ∃ pool, lending = { reg with pool } ∧
      ∀ rest, reg.pool.Holds rest → pool.Holds (view.slots ++ rest) := by
  rcases SequenceView.build_cases reg root settings interaction with
    ⟨_, failed⟩ | ⟨_, _, pool, _, succeeded, _, _, holds⟩
  · rw [failed] at built
    cases built
  · rw [succeeded] at built
    cases built
    exact ⟨pool, rfl, holds⟩

theorem Reachable.coherent {drawn : Option (SequenceView R)}
    (reachable : reg.Reachable drawn) : reg.Coherent := by
  induction reachable with
  | create metrics toggles text => exact coherent_create metrics toggles text
  | operate _ operation _ coherent => exact coherent.apply operation
  | draw _ _ _ _ built coherent =>
    obtain ⟨_, rfl, _⟩ := eq_of_build built
    exact coherent.of_bare_eq rfl
  | giveBack _ coherent => exact coherent.of_bare_eq rfl

theorem Settled.apply (settled : reg.Settled) (coherent : reg.Coherent) (operation : Operation R) :
    (reg.apply operation).Settled := by
  by_cases rows : operation.isRows = true
  · rcases coherent.rowsChange_apply rows with ⟨_, change⟩
    exact settled.rowsChange coherent change
  cases operation with
  | setPerspective perspective => exact settled.setPerspective perspective
  | setData nodes links =>
    exact (settled_clear reg).addData (coherent_clear reg) nodes links
  | addData nodes links => exact settled.addData coherent nodes links
  | deleteNode id => exact settled.deleteNode coherent id
  | clear => exact settled_clear reg
  | focusOnClass classId => exact settled.focusOnClass coherent classId
  | applyPositions positions => exact settled.applyPositions positions
  | updateEdgeGeometry => exact settled.updateEdgeGeometry
  | _ => exact absurd rfl rows

theorem Reachable.settled {drawn : Option (SequenceView R)}
    (reachable : reg.Reachable drawn) : reg.Settled := by
  induction reachable with
  | create metrics toggles text => exact settled_of_empty rfl rfl
  | operate before operation _ settled => exact settled.apply before.coherent operation
  | draw _ _ _ _ built settled =>
    obtain ⟨_, rfl, _⟩ := eq_of_build built
    exact settled.of_subset (fun _ mem => mem) (fun _ mem => mem) fun _ mem => mem
  | giveBack _ settled =>
    exact settled.of_subset (fun _ mem => mem) (fun _ mem => mem) fun _ mem => mem

/-- The slots of a call diagram that may be drawn. -/
def lentTo (drawn : Option (SequenceView R)) : List Slot :=
  drawn.elim [] SequenceView.slots

theorem Balanced.apply {lent : List Slot} (balanced : reg.Balanced lent)
    (coherent : reg.Coherent) (operation : Operation R)
    (lends : lent = [] ∨ operation.empties = false) : (reg.apply operation).Balanced lent := by
  by_cases rows : operation.isRows = true
  · rcases coherent.rowsChange_apply rows with ⟨_, change⟩
    exact balanced.rowsChange coherent change
  cases operation with
  | setPerspective perspective =>
    obtain rfl := lends.resolve_right nofun
    exact balanced.setPerspective perspective
  | setData nodes links =>
    obtain rfl := lends.resolve_right nofun
    exact balanced_setData reg nodes links
  | addData nodes links => exact balanced.addData coherent nodes links
  | deleteNode id => exact balanced.deleteNode coherent id
  | clear =>
    obtain rfl := lends.resolve_right nofun
    exact balanced_clear reg
  | focusOnClass classId => exact balanced.focusOnClass coherent classId
  | applyPositions positions => exact balanced.applyPositions positions
  | updateEdgeGeometry => exact balanced.updateEdgeGeometry
  | _ => exact absurd rfl rows

theorem Reachable.balanced {drawn : Option (SequenceView R)}
    (reachable : reg.Reachable drawn) : reg.Balanced (lentTo drawn) := by
  induction reachable with
  | create metrics toggles text => exact balanced_create metrics toggles text
  | operate before operation lends balanced =>
    exact balanced.apply before.coherent operation (lends.imp_left (congrArg lentTo))
  | draw _ _ _ _ built balanced =>
    obtain ⟨pool, rfl, holds⟩ := eq_of_build built
    rw [Balanced, lentTo, Option.elim_none, List.append_nil] at balanced
    exact (holds _ balanced).of_perm List.perm_append_comm
  | giveBack _ balanced =>
    have released := Pool.Holds.releaseAll (Pool.Holds.of_perm balanced List.perm_append_comm)
    rw [Balanced, lentTo, Option.elim_none, List.append_nil]
    exact released

end Registry

/-! ## Runs of a diagram -/

namespace Engine

/-- The registry of a diagram is in a state that it can reach, with the call
diagram that is shown. -/
def Tracked (engine : Engine R) : Prop :=
  engine.registry.Reachable engine.sequence?

omit [Scalar R] in
theorem sequence?_of_mode (mode : next.mode = engine.mode) :
    next.sequence? = engine.sequence? := by
  rw [sequence?, sequence?, mode]

omit [Scalar R] in
theorem sequence?_leaveSequence (engine : Engine R) : engine.leaveSequence.2.sequence? = none := by
  rw [sequence?, mode_leaveSequence]

section

variable (tracked : engine.Tracked)
include tracked

/-- Only the registry and the mode matter. -/
theorem Tracked.of_same (reg : next.registry = engine.registry) (mode : next.mode = engine.mode) :
    next.Tracked := by
  rw [Tracked, reg, sequence?_of_mode mode]
  exact tracked

theorem Tracked.leaveSequence : engine.leaveSequence.2.Tracked := by
  unfold Tracked sequence? at tracked
  unfold Engine.leaveSequence
  cases mode : engine.mode with
  | graph =>
    rw [mode] at tracked
    rw [Tracked, sequence?, mode]
    exact tracked
  | sequence view =>
    rw [mode] at tracked
    exact tracked.giveBack

/-- Once a call diagram is left, every operation of the registry is open. -/
theorem Tracked.operate_left (operation : Registry.Operation R) :
    Tracked { engine.leaveSequence.2 with
      registry := engine.leaveSequence.2.registry.apply operation } := by
  have left := tracked.leaveSequence
  rw [Tracked, sequence?_leaveSequence] at left
  have operated := left.operate operation (Or.inl rfl)
  rw [← sequence?_leaveSequence engine] at operated
  exact operated

/-- What keeps the lent labels can be asked for at any time. -/
theorem Tracked.operate (operation : Registry.Operation R) (lends : operation.empties = false) :
    Tracked { engine with registry := engine.registry.apply operation } :=
  Registry.Reachable.operate tracked operation (Or.inr lends)

theorem Tracked.relayout : engine.relayout.Tracked := by
  unfold Engine.relayout
  dsimp only
  split
  · exact tracked.of_same rfl rfl
  · have moved := tracked.operate (.applyPositions
      (engine.layouter engine.registry.layoutNodes engine.registry.layoutEdges)) rfl
    exact (moved.operate .updateEdgeGeometry rfl).of_same rfl rfl

/-- Every operation of a diagram takes its registry along the steps above. -/
theorem Tracked.apply {operation : Operation R} (applied : engine.apply operation = .ok next) :
    next.Tracked := by
  cases mapStep_of_apply (Registry.Reachable.coherent tracked) applied with
  | kept same => exact tracked.of_same same.registry same.mode
  | left same => exact tracked.leaveSequence.of_same same.registry same.mode
  | emptied operation same _ =>
    exact (tracked.operate_left operation).of_same same.registry same.mode
  | shown root built same =>
    have left := tracked.leaveSequence
    rw [Tracked, sequence?_leaveSequence] at left
    rw [Tracked, same.registry, sequence?_of_mode same.mode]
    exact left.draw root _ _ built
  | relaid same => exact tracked.relayout.of_same same.registry same.mode
  | replaced nodes links same =>
    exact (tracked.operate_left (.setData nodes links)).relayout.of_same same.registry
      same.mode
  | changed operation lends same =>
    exact (tracked.operate operation lends).leaveSequence.relayout.of_same same.registry
      same.mode

end

/-- Every run of a new diagram leaves its registry in a reachable state. -/
theorem reachable_of_run (config : EngineConfig R) (text : TextMetrics R) (layouter : Layouter R)
    (viewport : Vec R) (operations : List (Operation R)) {engine : Engine R}
    (ran : (withLayouter config text layouter viewport).run operations = .ok engine) :
    engine.registry.Reachable engine.sequence? := by
  have start : (withLayouter config text layouter viewport).Tracked :=
    Registry.Reachable.create _ _ _
  exact run_induction start (fun _ _ _ _ tracked applied => tracked.apply applied) ran

end Engine

end CodeAtlas
