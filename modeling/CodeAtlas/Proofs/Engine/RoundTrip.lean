import CodeAtlas.Proofs.Engine.Scene
import CodeAtlas.Proofs.Engine.Step

/-!
# There and back again

A call diagram borrows: each of its labels is new to the pool and lies on top of
what was there.  Whoever looks around in it, with the pointer or the wheel,
changes nothing of the map, and when the diagram goes it gives back exactly what
it borrowed.  So the map is found as it was left, and only the counter of the
pool has moved on.
-/

namespace CodeAtlas

/-! ## Borrowed resources -/

namespace Pool

variable {R : Type}

/-- One pool is another one with new resources on top, which have the numbers of
the list. -/
structure Lends (pool next : Pool R) (ids : List ResourceId) : Prop where
  entries : ∃ top, next.entries = top ++ pool.entries ∧ ∀ entry ∈ top, entry.1 ∈ ids
  fresh : ∀ id ∈ ids, pool.lastId < id
  counted : next.lastId = pool.lastId + ids.length

theorem lends_nil (pool : Pool R) : pool.Lends pool [] :=
  ⟨⟨[], rfl, by simp⟩, by simp, rfl⟩

theorem Lends.trans {pool middle next : Pool R} {ids more : List ResourceId}
    (first : pool.Lends middle ids) (second : middle.Lends next more) :
    pool.Lends next (ids ++ more) := by
  obtain ⟨lower, middleEntries, lowerIds⟩ := first.entries
  obtain ⟨upper, nextEntries, upperIds⟩ := second.entries
  constructor
  · refine ⟨upper ++ lower, by rw [nextEntries, middleEntries, List.append_assoc], ?_⟩
    intro entry mem
    rcases List.mem_append.mp mem with inUpper | inLower
    · exact List.mem_append_right _ (upperIds entry inUpper)
    · exact List.mem_append_left _ (lowerIds entry inLower)
  · intro id mem
    rcases List.mem_append.mp mem with old | new
    · exact first.fresh id old
    · have later : middle.lastId < id := second.fresh id new
      rw [first.counted] at later
      exact Nat.lt_of_le_of_lt (Nat.le_add_right _ _) later
  · rw [second.counted, first.counted, List.length_append, Nat.add_assoc]

theorem lends_allocate (pool : Pool R) (resource : Resource R) :
    pool.Lends (pool.allocate resource).2 [(pool.allocate resource).1] := by
  constructor
  · exact ⟨[_], rfl, by simp [allocate]⟩
  · simp [allocate]
  · rfl

theorem releaseAll_eq_filter (pool : Pool R) (ids : List ResourceId) :
    pool.releaseAll ids =
      { pool with entries := pool.entries.filter fun entry => entry.1 ∉ ids } := by
  induction ids generalizing pool with
  | nil => simp [releaseAll]
  | cons id rest ih =>
    have stepped : pool.releaseAll (id :: rest) = (pool.release id).releaseAll rest := rfl
    rw [stepped, ih, release]
    simp only [List.filter_filter, List.mem_cons, not_or]
    congr 2
    funext entry
    simp [Bool.and_comm]

/-- Giving back what was lent leaves the pool as it was, but for the counter. -/
theorem Lends.releaseAll {pool next : Pool R} {ids : List ResourceId}
    (lends : pool.Lends next ids) {slots : List Slot} (holds : pool.Holds slots) :
    next.releaseAll ids = { pool with lastId := pool.lastId + ids.length } := by
  obtain ⟨top, entries, topIds⟩ := lends.entries
  have dropped : top.filter (fun entry => entry.1 ∉ ids) = [] := by
    simp only [List.filter_eq_nil_iff, decide_eq_true_eq, not_not]
    exact topIds
  have kept : pool.entries.filter (fun entry => entry.1 ∉ ids) = pool.entries := by
    rw [List.filter_eq_self]
    intro entry mem
    have held : (entry.1, entry.2.kind) ∈ slots :=
      holds.perm.mem_iff.mp (List.mem_map_of_mem mem)
    have old : entry.1 ≤ pool.lastId := holds.bound _ held
    simpa using fun new => Nat.not_lt.mpr old (lends.fresh _ new)
  rw [releaseAll_eq_filter, entries, List.filter_append, dropped, kept, List.nil_append,
    lends.counted]

end Pool

variable {R : Type} [Scalar R]

namespace SequenceView

theorem lends_lanesFrom (settings : SequenceSettings R) (text : TextMetrics R)
    (callCount index : Nat) (named : List (NodeId × String)) (pool : Pool R) :
    pool.Lends (lanesFrom settings text callCount index named pool).2
      ((lanesFrom settings text callCount index named pool).1.map Lane.label) := by
  induction named generalizing index pool with
  | nil => exact pool.lends_nil
  | cons first rest ih =>
    exact (pool.lends_allocate _).trans (ih (index + 1) _)

theorem lends_arrowsFrom (settings : SequenceSettings R) (text : TextMetrics R)
    (lanes : List (Lane R)) (laneIds : List NodeId) (index : Nat) (calls : List Call)
    (pool : Pool R) :
    pool.Lends (arrowsFrom settings text lanes laneIds index calls pool).2
      ((arrowsFrom settings text lanes laneIds index calls pool).1.map CallArrow.label) := by
  induction calls generalizing index pool with
  | nil => exact pool.lends_nil
  | cons call rest ih =>
    obtain ⟨bitmap, label, after⟩ := arrow_allocates settings text lanes laneIds index call pool
    have lent := pool.lends_allocate (.label bitmap)
    change pool.Lends (pool.allocateLabel bitmap).2 [(pool.allocateLabel bitmap).1] at lent
    rw [← label, ← after] at lent
    exact lent.trans (ih (index + 1) _)

/-- A diagram borrows its labels. -/
theorem lends_build {reg lending : Registry R} {root : NodeId}
    {settings : SequenceSettings R} {interaction : InteractionSettings R} {view : SequenceView R}
    (built : build reg root settings interaction = some (view, lending)) :
    reg.pool.Lends lending.pool view.resources := by
  simp only [build, Option.bind_eq_bind, Option.bind_eq_some_iff, Option.pure_def,
    Option.some.injEq, Prod.mk.injEq] at built
  obtain ⟨calls, _, method, _, rfl, rfl⟩ := built
  exact (lends_lanesFrom settings reg.text _ _ _ _).trans (lends_arrowsFrom _ _ _ _ _ _ _)

end SequenceView

namespace Engine

/-! ## There -/

/-- The registry is that of another diagram, with the labels of a call diagram on
top of its pool. -/
structure ShowsCalls (start engine : Engine R) (view : SequenceView R) : Prop where
  mode : engine.mode = .sequence view
  registry : engine.registry = { start.registry with pool := engine.registry.pool }
  lends : start.registry.pool.Lends engine.registry.pool view.resources

omit [Scalar R] in
theorem ShowsCalls.of_sameView {start engine next : Engine R} {view : SequenceView R}
    (shows : ShowsCalls start engine view) (same : next.SameView engine) :
    ShowsCalls start next view := by
  constructor
  · exact same.mode.trans shows.mode
  · rw [same.registry]
    exact shows.registry
  · rw [same.registry]
    exact shows.lends

/-- From the map the calls of every method on it can be shown. -/
theorem exists_showsCalls {engine : Engine R} (graph : engine.mode = .graph) {root : NodeId}
    (known : root ∈ engine.registry.methods.keys) :
    ∃ shown view, engine.showSequence root = (true, shown) ∧ shown.config = engine.config ∧
      ShowsCalls engine shown view := by
  have left : engine.leaveSequence.2 = engine := by rw [leaveSequence, graph]
  rcases SequenceView.build_cases engine.registry root engine.config.sequence
      engine.config.interaction with ⟨unknown, _⟩ | ⟨_, view, pool, _, built, _⟩
  · exact absurd known unknown
  · let drawn := { engine with
      registry := { engine.registry with pool }
      mode := .sequence view
      interaction := {} }.rebuildScene
    have fitted := sameView_fitToContent drawn
    have kept : drawn.fitToContent.2.config = drawn.config :=
      congrArg Prod.fst (sameMap_fitToContent drawn).setup
    refine ⟨drawn.fitToContent.2.publish (.sequenceEntered root view.calls.length), view, ?_,
      kept, ?_⟩
    · rw [showSequence, left, built]
    · have shows : ShowsCalls engine drawn view := ⟨rfl, rfl, SequenceView.lends_build built⟩
      exact shows.of_sameView
        ⟨fitted.registry, fitted.mode, fitted.scene, fitted.hitTester⟩

/-- Looking around changes nothing. -/
theorem ShowsCalls.run {start engine final : Engine R} {view : SequenceView R}
    (shows : ShowsCalls start engine view) {inputs : List (Operation R)}
    (looking : ∀ input ∈ inputs, input.isViewing = true)
    (ran : engine.run inputs = .ok final) : ShowsCalls start final view := by
  apply run_induction (motive := fun engine => ShowsCalls start engine view) shows ?_ ran
  intro before after input mem shows applied
  exact shows.of_sameView (sameView_of_viewing (looking input mem) applied)

/-! ## And back again -/

/-- Going back gives back what was borrowed, draws the map and selects nothing. -/
theorem ShowsCalls.exitSequence {start engine : Engine R} {view : SequenceView R}
    (shows : ShowsCalls start engine view) {slots : List Slot}
    (holds : start.registry.pool.Holds slots) :
    ∃ back, engine.exitSequence = (true, back) ∧
      back.registry = { start.registry with
        pool := { start.registry.pool with
          lastId := start.registry.pool.lastId + view.resources.length } } ∧
      back.mode = .graph ∧ back.UpToDate ∧ back.interaction = {} := by
  let left := { engine with
    mode := .graph
    registry := { engine.registry with pool := view.release engine.registry.pool }
    interaction := {} }.publish .sequenceExited
  have fitted := sameView_fitToContent left.rebuildScene
  refine ⟨left.rebuildScene.fitToContent.2, ?_, ?_, fitted.mode,
    (upToDate_rebuildScene left).fitToContent, interaction_fitToContent left.rebuildScene⟩
  · rw [Engine.exitSequence, leaveSequence, shows.mode]
    rfl
  · have restored := shows.lends.releaseAll holds
    rw [fitted.registry]
    change { engine.registry with pool := engine.registry.pool.releaseAll view.resources } = _
    rw [restored, shows.registry]

/-- The calls of a method on the map are shown, the user looks around in them
with the pointer, the wheel and the size of the window, and goes back.  Then the
registry is the same as before in every part, and so is the pool but for its
counter, which has counted a label for each lane and each arrow; the map is shown
as it would be drawn now, and nothing is selected.  The inputs are taken whenever
the limits of the zoom are in order. -/
theorem calls_leave_map_alone (config : EngineConfig R) (text : TextMetrics R)
    (layouter : Layouter R) (viewport : Vec R) (operations : List (Operation R))
    {engine : Engine R}
    (ran : (withLayouter config text layouter viewport).run operations = .ok engine)
    (graph : engine.mode = .graph) {root : NodeId}
    (known : root ∈ engine.registry.methods.keys) :
    ∃ shown view, engine.showSequence root = (true, shown) ∧ shown.mode = .sequence view ∧
      ∀ inputs : List (Operation R), (∀ input ∈ inputs, input.isViewing = true) →
        (engine.config.camera.minExtent ≤ engine.config.camera.maxExtent →
          ∃ seen, shown.run inputs = .ok seen) ∧
        ∀ seen, shown.run inputs = .ok seen →
          ∃ back, seen.exitSequence = (true, back) ∧
            back.registry = { engine.registry with
              pool := { engine.registry.pool with
                lastId := engine.registry.pool.lastId +
                  (view.lanes.length + view.arrows.length) } } ∧
            back.mode = .graph ∧
            back.scene = .ofRegistry back.registry ∧
            back.hitTester.regions = back.scene.hitRegions ∧
            back.interaction = {} := by
  have sound := (sound_withLayouter config text layouter viewport).run ran
  obtain ⟨shown, view, opened, kept, shows⟩ := exists_showsCalls graph known
  refine ⟨shown, view, opened, shows.mode, ?_⟩
  intro inputs looking
  constructor
  · intro ordered
    exact shown.exists_run_of_viewing (by rw [kept]; exact ordered) looking
  · intro seen ranInputs
    obtain ⟨back, closed, registry, mode, upToDate, interaction⟩ :=
      (shows.run looking ranInputs).exitSequence (sound.balanced_of_graph graph)
    refine ⟨back, closed, ?_, mode, ?_, upToDate.regions, interaction⟩
    · rw [registry, SequenceView.resources, List.length_append, List.length_map, List.length_map]
    · rw [upToDate.scene, currentScene, mode]

/-- The calls of the method in the small diagram are shown and clicked on. -/
theorem calls_leave_sample :
    let before := (sampleStart.setData sampleNodes sampleClaims).2
    ∃ shown view seen back, before.showSequence "method" = (true, shown) ∧
      shown.mode = .sequence view ∧
      shown.run [.resize 640.0 480.0, .pointerDown ⟨90.0, 20.0⟩ .primary,
        .pointerUp ⟨90.0, 20.0⟩ .primary, .pointerMove ⟨10.0, 10.0⟩] = .ok seen ∧
      seen.exitSequence = (true, back) ∧
      back.registry = { before.registry with
        pool := { before.registry.pool with
          lastId := before.registry.pool.lastId + (view.lanes.length + view.arrows.length) } } ∧
      back.interaction = {} := by
  intro before
  have graph : before.mode = .graph := (upToDate_setData sampleStart _ _).2
  have known : "method" ∈ before.registry.methods.keys := by
    rw [keys_sample.2]
    decide
  obtain ⟨shown, view, opened, mode, around⟩ :=
    calls_leave_map_alone .standard _ _ _ [.setData sampleNodes sampleClaims] rfl graph known
  obtain ⟨_, returned⟩ := around [.resize 640.0 480.0, .pointerDown ⟨90.0, 20.0⟩ .primary,
    .pointerUp ⟨90.0, 20.0⟩ .primary, .pointerMove ⟨10.0, 10.0⟩] (by simp [Operation.isViewing])
  obtain ⟨back, closed, registry, _, _, _, interaction⟩ := returned _ rfl
  exact ⟨shown, view, _, back, opened, mode, rfl, closed, registry, interaction⟩

end Engine

end CodeAtlas
