import CodeAtlas.Proofs.Engine.Placement
import CodeAtlas.Proofs.Engine.Scene
import CodeAtlas.Proofs.Registry.Look

/-!
# Row changes can be undone

Flipping a toggle twice, or focusing on a method and giving the focus up again,
gives a class back what it had.  Rows, sizes, places and lines are then made anew
from what the map was before, so the diagram looks as it did.
-/

namespace CodeAtlas

variable {R : Type} [Scalar R] {reg : Registry R} {engine : Engine R} {node : ClassNode R}
  {classId : NodeId}

namespace Toggles

theorem get_set (toggles : Toggles) (toggle : Toggle) (enabled : Bool) :
    (toggles.set toggle enabled).get toggle = enabled := by
  cases toggle <;> rfl

theorem set_set_get (toggles : Toggles) (toggle : Toggle) (enabled : Bool) :
    (toggles.set toggle enabled).set toggle (toggles.get toggle) = toggles := by
  cases toggle <;> rfl

end Toggles

/-- A thing that is changed and changed back is what it was. -/
theorem Store.modify_modify {α : Type} [Keyed α] {store : Store α} {key : String}
    {change back : α → α} (keeps : ∀ item, Keyed.key item = key → Keyed.key (change item) = key)
    (undoes : ∀ item ∈ store.items, Keyed.key item = key → back (change item) = item) :
    (store.modify key change).modify key back = store := by
  simp only [modify, List.map_map]
  refine congrArg Store.mk ((List.map_congr_left ?_).trans (List.map_id _))
  intro item mem
  by_cases own : Keyed.key item = key
  · simp [own, keeps item own, undoes item mem own]
  · simp [own]

namespace Registry

/-! ## Changes of one class -/

theorem bare_reconfigure (reg : Registry R) (classId : NodeId) (toggles : Toggles → Toggles)
    (focus : Option NodeId → Option NodeId) :
    (reg.reconfigure classId toggles focus).bare =
      reg.bare.reconfigure classId toggles focus := by
  have keeps : ∀ node : ClassNode R, Keyed.key node.bare = Keyed.key node := fun _ => rfl
  have classes : (reg.bare.reconfigure classId toggles focus).classes =
      (reg.reconfigure classId toggles focus).bare.classes :=
    Store.modify_map keeps reg.classes classId fun _ => rfl
  exact congrArg (fun classes => { reg.bare with classes }) classes.symm

omit [Scalar R] in
/-- A class that is given back what it had is what it was. -/
theorem reconfigure_reconfigure {classId : NodeId}
    {toggles back : Toggles → Toggles} {focus refocus : Option NodeId → Option NodeId}
    (undoes : ∀ node ∈ reg.classes.items, node.id = classId →
      back (toggles node.toggles) = node.toggles ∧
        refocus (focus node.focusedMethod) = node.focusedMethod) :
    (reg.reconfigure classId toggles focus).reconfigure classId back refocus = reg := by
  have classes : ((reg.reconfigure classId toggles focus).reconfigure classId back
      refocus).classes = reg.classes := by
    apply Store.modify_modify
    · exact fun _ own => own
    · intro node mem own
      obtain ⟨togglesBack, focusBack⟩ := undoes node mem own
      simp only [togglesBack, focusBack]
  exact congrArg (fun classes => { reg with classes }) classes

/-- What a changed class has, as far as the bare map tells. -/
theorem get?_of_reconfigured {reg next : Registry R} {toggles : Toggles → Toggles}
    {focus : Option NodeId → Option NodeId} (found : reg.classes.get? classId = some node)
    (changes : next.bare = reg.bare.reconfigure classId toggles focus) :
    ∃ changed, next.classes.get? classId = some changed ∧
      changed.toggles = toggles node.toggles ∧
      changed.focusedMethod = focus node.focusedMethod := by
  have keeps : ∀ node : ClassNode R, Keyed.key node.bare = Keyed.key node := fun _ => rfl
  have before : reg.bare.classes.get? classId = some node.bare :=
    (Store.get?_map keeps reg.classes classId).trans (by rw [found, Option.map_some])
  have after : (reg.bare.reconfigure classId toggles focus).classes.get? classId =
      if classId = classId then (reg.bare.classes.get? classId).map _ else _ :=
    Store.get?_modify fun _ same => same
  rw [← changes, if_pos rfl] at after
  rw [before, Option.map_some] at after
  obtain ⟨changed, changedFound, same⟩ := Option.map_eq_some_iff.mp
    ((Store.get?_map keeps next.classes classId).symm.trans after)
  have changedToggles := congrArg ClassNode.toggles same
  have changedFocus := congrArg ClassNode.focusedMethod same
  exact ⟨changed, changedFound, changedToggles, changedFocus⟩

/-- A change and its inverse leave the bare map as it was. -/
theorem Coherent.bare_restored {reg next last : Registry R} (coherent : reg.Coherent)
    {toggles back : Toggles → Toggles} {focus refocus : Option NodeId → Option NodeId}
    (found : reg.classes.get? classId = some node)
    (changes : next.bare = reg.bare.reconfigure classId toggles focus)
    (undoes : last.bare = next.bare.reconfigure classId back refocus)
    (togglesBack : back (toggles node.toggles) = node.toggles)
    (focusBack : refocus (focus node.focusedMethod) = node.focusedMethod) :
    last.bare = reg.bare := by
  rw [undoes, changes]
  apply reconfigure_reconfigure
  intro bareNode mem own
  obtain ⟨other, otherMem, rfl⟩ := List.mem_map.mp mem
  obtain rfl : other = node := Store.eq_of_key_eq coherent.classKeys otherMem
    (Store.mem_of_get? found) (Eq.trans own (Store.key_of_get? found).symm)
  exact ⟨togglesBack, focusBack⟩

/-! ## Toggles and focus -/

theorem Coherent.bare_refreshed (coherent : reg.Coherent) (classId : NodeId)
    (toggles : Toggles → Toggles) (focus : Option NodeId → Option NodeId) :
    ((reg.reconfigure classId toggles focus).refreshClass classId).bare =
      reg.bare.reconfigure classId toggles focus := by
  have distinct : (reg.reconfigure classId toggles focus).methods.keys.Nodup :=
    coherent.methodKeys
  rw [bare_refreshClass classId distinct, bare_reconfigure]

theorem flipToggle_of_get? (found : reg.classes.get? classId = some node) (toggle : Toggle) :
    reg.flipToggle classId toggle =
      (true, (reg.reconfigure classId
        (fun toggles => toggles.set toggle (!node.toggles.get toggle)) id).refreshClass
          classId) := by
  have different : ¬ node.toggles.get toggle = !node.toggles.get toggle := by simp
  simp only [flipToggle, setToggle, found, if_neg different]
  rfl

theorem focusMethod_of_get? {method : Method}
    (methodFound : reg.methods.get? method.id = some method)
    (found : reg.classes.get? method.classId = some node)
    (unfocused : node.focusedMethod = none) :
    reg.focusMethod method.id =
      (true, (reg.reconfigure method.classId id fun _ => some method.id).refreshClass
        method.classId) := by
  simp only [focusMethod, methodFound, found, unfocused]
  rfl

theorem restoreMethods_of_get? {classId methodId : NodeId}
    (found : reg.classes.get? classId = some node)
    (focused : node.focusedMethod = some methodId) :
    reg.restoreMethods classId =
      (true, (reg.reconfigure classId id fun _ => none).refreshClass classId) := by
  have isFocused : ¬ node.focusedMethod.isNone = true := by simp [focused]
  simp only [restoreMethods, found, if_neg isFocused]
  rfl

end Registry

namespace Engine

/-- A diagram shows its map as another did, under the same camera. -/
structure ShowsSame (engine next : Engine R) : Prop where
  map : engine.registry.ShowsSame next.registry
  mode : next.mode = .graph
  camera : next.camera = engine.camera

theorem bare_withRows_reconfigure (coherent : engine.registry.Coherent)
    {change : Bool × Registry R} {classId : NodeId} {toggles : Toggles → Toggles}
    {focus : Option NodeId → Option NodeId}
    (changes : change =
      (true, (engine.registry.reconfigure classId toggles focus).refreshClass classId)) :
    (engine.withRows change).2.registry.bare =
      engine.registry.bare.reconfigure classId toggles focus := by
  rw [bare_withRows, changes]
  exact coherent.bare_refreshed classId toggles focus

/-- Two runs of one diagram that come to the same bare map lay it out in the same
way, if they lay out all of it. -/
theorem placedSame_of_runs {config : EngineConfig R} {text : TextMetrics R}
    {layouter : Layouter R} {viewport : Vec R} {operations otherOperations : List (Operation R)}
    {engine other : Engine R} (places : PlacesAll layouter)
    (ran : (withLayouter config text layouter viewport).run operations = .ok engine)
    (otherRan : (withLayouter config text layouter viewport).run otherOperations = .ok other)
    (same : other.registry.bare = engine.registry.bare) :
    engine.registry.PlacedSame other.registry := by
  have start : (withLayouter config text layouter viewport).Tracked :=
    Registry.Reachable.create _ _ _
  have empty : (withLayouter config text layouter viewport).registry.Laid layouter :=
    Registry.laid_of_empty rfl rfl rfl
  exact Registry.placedSame_of_bare_eq same
    (reachable_of_run config text layouter viewport _ ran)
    (reachable_of_run config text layouter viewport _ otherRan) (laid_run start places empty ran)
    (laid_run start places empty otherRan)

/-- A change of rows is told, and keeps the camera. -/
theorem view_withRows (graph : engine.mode = .graph) {change : Bool × Registry R}
    {reg : Registry R} (changes : change = (true, reg)) :
    (engine.withRows change).1 = true ∧ (engine.withRows change).2.mode = .graph ∧
      (engine.withRows change).2.camera = engine.camera := by
  subst changes
  have stays :
      { engine with registry := reg }.leaveSequence.2 = { engine with registry := reg } := by
    simp only [leaveSequence, graph]
  simp only [withRows, afterRowChange, stays]
  obtain ⟨laidOut, relayoutEq, _⟩ := relayout_eq { engine with
    registry := reg
    interaction := { engine.interaction with
      selectedMethod := engine.interaction.selectedMethod.filter fun id =>
        (reg.methodRowRect id).isSome } }
  rw [relayoutEq]
  exact ⟨trivial, graph, rfl⟩

/-- A change of one class and its inverse are told, and leave a diagram that shows
the same as it did. -/
theorem showsSame_of_undone {config : EngineConfig R} {text : TextMetrics R}
    {layouter : Layouter R} {viewport : Vec R} {operations : List (Operation R)}
    {engine : Engine R}
    (ran : (withLayouter config text layouter viewport).run operations = .ok engine)
    (graph : engine.mode = .graph) {classId : NodeId} {node : ClassNode R}
    (found : engine.registry.classes.get? classId = some node) {change undo : Bool × Registry R}
    {first second : Operation R} {toggles back : Toggles → Toggles}
    {focus refocus : Option NodeId → Option NodeId}
    (changes : change =
      (true, (engine.registry.reconfigure classId toggles focus).refreshClass classId))
    (undoes : undo = (true, ((engine.withRows change).2.registry.reconfigure classId back
      refocus).refreshClass classId))
    (applies : engine.apply first = .ok (engine.withRows change).2)
    (appliesBack : (engine.withRows change).2.apply second =
      .ok ((engine.withRows change).2.withRows undo).2)
    (togglesBack : back (toggles node.toggles) = node.toggles)
    (focusBack : refocus (focus node.focusedMethod) = node.focusedMethod) :
    let last := ((engine.withRows change).2.withRows undo).2
    (engine.withRows change).1 = true ∧ ((engine.withRows change).2.withRows undo).1 = true ∧
      engine.ShowsSame last ∧ (PlacesAll layouter → engine.registry.PlacedSame last.registry) := by
  have ranOnce := run_concat.mpr ⟨engine, ran, applies⟩
  have ranTwice := run_concat.mpr ⟨_, ranOnce, appliesBack⟩
  have reachable := reachable_of_run config text layouter viewport _ ran
  have reachableOnce := reachable_of_run config text layouter viewport _ ranOnce
  have reachableTwice := reachable_of_run config text layouter viewport _ ranTwice
  have same := reachable.coherent.bare_restored found
    (bare_withRows_reconfigure reachable.coherent changes)
    (bare_withRows_reconfigure reachableOnce.coherent undoes) togglesBack focusBack
  obtain ⟨told, graphOnce, camera⟩ := view_withRows graph changes
  obtain ⟨toldBack, graphTwice, cameraBack⟩ := view_withRows graphOnce undoes
  have shows := Registry.showsSame_of_bare_eq same reachable reachableTwice
  exact ⟨told, toldBack, ⟨shows, graphTwice, cameraBack.trans camera⟩,
    fun places => placedSame_of_runs places ran ranTwice same⟩

/-- After every run of a new diagram that shows its map: a toggle of a class that is
flipped twice, and a focus that is set where there was none and given up again, both
change the rows each time, and then the diagram shows the same as it did.  Boxes and
lines are where they were as well, if the layout places every box. -/
theorem row_changes_undone (config : EngineConfig R) (text : TextMetrics R)
    (layouter : Layouter R) (viewport : Vec R) (operations : List (Operation R))
    {engine : Engine R}
    (ran : (withLayouter config text layouter viewport).run operations = .ok engine)
    (graph : engine.mode = .graph) :
    (∀ classId ∈ engine.registry.classes.keys, ∀ toggle,
      let once := engine.flipToggle classId toggle
      let twice := once.2.flipToggle classId toggle
      once.1 = true ∧ twice.1 = true ∧ engine.ShowsSame twice.2 ∧
        (PlacesAll layouter → engine.registry.PlacedSame twice.2.registry)) ∧
    ∀ method ∈ engine.registry.methods.items, ∀ owner ∈ engine.registry.classes.items,
      owner.id = method.classId → owner.focusedMethod = none →
      let focused := engine.focusMethod method.id
      let restored := focused.2.restoreMethods method.classId
      focused.1 = true ∧ restored.1 = true ∧ engine.ShowsSame restored.2 ∧
        (PlacesAll layouter → engine.registry.PlacedSame restored.2.registry) := by
  have coherent := (reachable_of_run config text layouter viewport _ ran).coherent
  constructor
  · intro classId known toggle once twice
    obtain ⟨node, found⟩ := Store.exists_get? known
    have flips := Registry.flipToggle_of_get? found toggle
    obtain ⟨changed, changedFound, toggles, _⟩ :=
      Registry.get?_of_reconfigured found (bare_withRows_reconfigure coherent flips)
    have flipsBack := Registry.flipToggle_of_get? changedFound toggle
    have flip : engine.apply (.flipToggle classId toggle) = .ok once.2 := rfl
    have flipBack : once.2.apply (.flipToggle classId toggle) = .ok twice.2 := rfl
    apply showsSame_of_undone ran graph found flips flipsBack flip flipBack
    · rw [toggles, Toggles.get_set, Bool.not_not, Toggles.set_set_get]
    · rfl
  · intro method mem owner ownerMem ownerId unfocused focused restored
    have methodFound := Store.get?_of_mem coherent.methodKeys mem
    have found := (Store.get?_eq_some_iff coherent.classKeys).mpr ⟨ownerMem, ownerId⟩
    have focuses := Registry.focusMethod_of_get? methodFound found unfocused
    obtain ⟨changed, changedFound, _, focus⟩ :=
      Registry.get?_of_reconfigured found (bare_withRows_reconfigure coherent focuses)
    have restores := Registry.restoreMethods_of_get? changedFound focus
    have focusing : engine.apply (.focusMethod method.id) = .ok focused.2 := rfl
    have restoring : focused.2.apply (.restoreMethods method.classId) = .ok restored.2 := rfl
    apply showsSame_of_undone ran graph found focuses restores focusing restoring
    · rfl
    · exact unfocused.symm

/-- In the small diagram the class owns the method, and has no focus. -/
theorem members_sample :
    let reg := (sampleStart.setData sampleNodes sampleClaims).2.registry
    ("class", none) ∈ reg.classes.items.map (fun node => (node.id, node.focusedMethod)) ∧
      ("method", "class") ∈ reg.methods.items.map fun row => (row.id, row.classId) := by
  intro reg
  have cleared := Registry.coherent_clear sampleStart.leaveSequence.2.registry
  obtain ⟨classes, methods⟩ := cleared.bare_addData rfl sampleNodes sampleClaims
  have bareEq := bare_setData sampleStart sampleNodes sampleClaims
  have owner : ("class", none) ∈
      reg.bare.classes.items.map fun node => (node.id, node.focusedMethod) := by
    rw [bareEq, Registry.setData, classes]
    decide
  have method : ("method", "class") ∈
      reg.bare.methods.items.map fun row => (row.id, row.classId) := by
    rw [bareEq, Registry.setData, methods]
    decide
  simp only [Registry.bare, List.map_map] at owner method
  exact ⟨owner, method⟩

/-- The arguments of the small diagram are shown and hidden again, and its method is
looked at alone and then among the others. -/
theorem row_changes_undone_sample :
    let engine := (sampleStart.setData sampleNodes sampleClaims).2
    let flipped := ((engine.flipToggle "class" .arguments).2.flipToggle "class" .arguments).2
    let restored := ((engine.focusMethod "method").2.restoreMethods "class").2
    (engine.flipToggle "class" .arguments).1 = true ∧ engine.ShowsSame flipped ∧
      engine.registry.PlacedSame flipped.registry ∧
    (engine.focusMethod "method").1 = true ∧ engine.ShowsSame restored ∧
      engine.registry.PlacedSame restored.registry := by
  intro engine flipped restored
  have places := (TreeLayouter.ofSettings sampleStart.config.layout).placesAll_execute
  have graph : engine.mode = .graph := (upToDate_setData sampleStart _ _).2
  obtain ⟨flips, focuses⟩ :=
    row_changes_undone .standard _ _ _ [.setData sampleNodes sampleClaims] rfl graph
  have known : "class" ∈ engine.registry.classes.keys := by
    rw [keys_sample.1]
    decide
  obtain ⟨flip, _, shows, placed⟩ := flips "class" known .arguments
  obtain ⟨ownerListed, methodListed⟩ := members_sample
  obtain ⟨owner, ownerMem, ownerEq⟩ := List.mem_map.mp ownerListed
  obtain ⟨method, mem, methodEq⟩ := List.mem_map.mp methodListed
  obtain ⟨ownerId, unfocused⟩ := Prod.mk.inj ownerEq
  obtain ⟨methodId, classId⟩ := Prod.mk.inj methodEq
  have around := focuses method mem owner ownerMem (ownerId.trans classId.symm) unfocused
  rw [methodId, classId] at around
  obtain ⟨focus, _, showsAgain, placedAgain⟩ := around
  exact ⟨flip, shows, placed places, focus, showsAgain, placedAgain places⟩

end Engine

end CodeAtlas
