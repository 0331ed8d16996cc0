import CodeAtlas.Proofs.Viewer.Actions

/-!
# What the viewer remembers

The viewer remembers the node that was clicked last and the node that its menu is
for.  Both were on the map when they were clicked.  Some actions take a node off
the map and do not make the viewer forget it: then it refers to a node that is
gone, until it forgets it or the node comes back.  There are no other ways to
refer to a node that is gone.
-/

namespace CodeAtlas

variable {R : Type} [Scalar R] {files : FileReader} {viewer next : Viewer R}

namespace Viewer

/-! ## Viewers that attend to their diagram -/

/-- What can be clicked is on the map, no click waits to be heard of, and the map
is empty while no payload is open. -/
structure Attends (viewer : Viewer R) : Prop where
  clickable : viewer.engine.Clickable
  unclicked : ∀ event ∈ viewer.engine.events.pending, event.node? = none
  closed : viewer.payload = none → ∀ id, viewer.engine.registry.containsNode id = false

/-- No action brings nodes while no payload is open. -/
theorem Attends.containsNode_of_step {action : Action} (attends : viewer.Attends)
    (step : viewer.ActionStep files next action) (closed : next.payload = none) (id : NodeId) :
    next.engine.registry.containsNode id = false := by
  cases step with
  | refused _ engine payload _ =>
    rw [engine]
    exact attends.closed (payload ▸ closed) id
  | unchanged _ engine payload _ =>
    rw [engine]
    exact attends.closed (payload ▸ closed) id
  | opened _ _ shows _ =>
    rw [shows] at closed
    cases closed
  | reshown _ _ _ shows _ =>
    rw [shows] at closed
    cases closed
  | emptied differs _ engine _ _ =>
    rw [engine]
    exact Engine.containsNode_setPerspective differs id
  | @isolated classId engine payload _ =>
    have empty := attends.closed (payload ▸ closed)
    have unknown : ¬ viewer.engine.registry.classes.contains classId = true := by
      intro known
      have found := Registry.containsNode_iff.mpr (Or.inl (Store.contains_iff.mp known))
      rw [empty classId] at found
      cases found
    rw [engine, Engine.containsNode_focusOnClass, Registry.focusOnClass, if_neg unknown]
    exact empty id
  | deleted engine payload _ =>
    have empty := attends.closed (payload ▸ closed)
    rw [engine, Engine.containsNode_deleteNode, Registry.deleteNode_of_unknown (empty _)]
    exact empty id
  | cleared engine _ _ =>
    rw [engine]
    rfl
  | spared sparing applied payload _ =>
    rw [Engine.containsNode_of_sparing attends.clickable.sound sparing applied]
    exact attends.closed (payload ▸ closed) id

theorem Attends.act {action : Action} (attends : viewer.Attends)
    (step : viewer.ActionStep files next action) : next.Attends := by
  obtain ⟨clickable, news, pending, unclicked⟩ := step.obeys
  refine ⟨clickable attends.clickable, ?_, attends.containsNode_of_step step⟩
  intro event mem
  rw [pending] at mem
  exact (List.mem_append.mp mem).elim (attends.unclicked event) (unclicked event)

omit [Scalar R] in
theorem Attends.look (attends : viewer.Attends) (looked : viewer.Looked next) : next.Attends := by
  refine ⟨looked.clickable, ?_, ?_⟩
  · rw [looked.heard]
    simp
  · rw [looked.registry, looked.payload]
    exact attends.closed

/-! ## Remembering nodes that are gone -/

/-- An action takes a node off the map and leaves it remembered. -/
inductive Strands (files : FileReader) (viewer : Viewer R) (id : NodeId) : Memory → Action → Prop
  /-- The class of a method goes, and the method with it. -/
  | withClass {memory : Memory} {owner : NodeId}
      (owned : id ∈ (viewer.engine.registry.methodsOf owner).map Method.id)
      (noClass : id ∉ viewer.engine.registry.classes.keys) :
      Strands files viewer id memory (.delete owner)
  /-- Another class is set apart, whose method the node is not. -/
  | setApart {memory : Memory} {classId : NodeId}
      (known : classId ∈ viewer.engine.registry.classes.keys) (different : id ≠ classId)
      (foreign : id ∉ (viewer.engine.registry.methodsOf classId).map Method.id) :
      Strands files viewer id memory (.isolate classId)
  /-- The node itself goes, unless it has been a class and a method. -/
  | deleted (gone : (viewer.engine.registry.deleteNode id).2.containsNode id = false) :
      Strands files viewer id .menu (.delete id)
  /-- A payload is opened that the node is not in. -/
  | replaced {path : PathName} {payload : Payload} (read : Payload.read files path = .ok payload)
      (gone : (viewer.engine.setPayload payload).2.registry.containsNode id = false) :
      Strands files viewer id .menu (.openPayload path)
  /-- The payload is shown in another perspective, where the node is missing. -/
  | switched {perspective : Perspective} {payload : Payload}
      (differs : perspective ≠ viewer.engine.registry.perspective)
      (shown : viewer.payload = some payload)
      (gone : Registry.containsNode
        ((viewer.engine.setPerspective perspective).2.setPayload payload).2.registry id = false) :
      Strands files viewer id .menu (.setPerspective perspective)

theorem Attends.strands_of_step {action : Action} {memory : Memory} {id : NodeId}
    (attends : viewer.Attends) (step : viewer.ActionStep files next action)
    (known : viewer.engine.registry.containsNode id = true)
    (recalled : next.remembered memory = some id)
    (gone : next.engine.registry.containsNode id = false)
    (uncleared : memory = .menu → action ≠ .clear) :
    viewer.Strands files id memory action := by
  have coherent := attends.clickable.sound.coherent
  -- A click is forgotten whenever a payload is shown anew.
  have isMenu : next.clicked = none → memory = .menu := by
    intro forgotten
    cases memory with
    | clicked =>
      rw [remembered, forgotten] at recalled
      cases recalled
    | menu => rfl
  cases step with
  | refused _ engine _ _ =>
    rw [engine, known] at gone
    cases gone
  | unchanged _ engine _ _ =>
    rw [engine, known] at gone
    cases gone
  | opened read engine _ clicked =>
    obtain rfl := isMenu clicked
    exact .replaced read (engine ▸ gone)
  | emptied _ closed _ _ _ =>
    rw [attends.closed closed id] at known
    cases known
  | reshown differs shown engine _ clicked =>
    obtain rfl := isMenu clicked
    exact .switched differs shown (engine ▸ gone)
  | @isolated classId engine _ _ =>
    rw [engine, Engine.containsNode_focusOnClass] at gone
    by_cases stored : classId ∈ viewer.engine.registry.classes.keys
    · have left := coherent.containsNode_focusOnClass stored id
      rw [gone] at left
      have lost := not_or.mp fun stays => Bool.noConfusion (left.mpr stays)
      exact .setApart stored lost.1 lost.2
    · rw [Registry.focusOnClass, if_neg (mt Store.contains_iff.mp stored), known] at gone
      cases gone
  | @deleted doomed engine _ clicked =>
    rw [engine, Engine.containsNode_deleteNode] at gone
    by_cases same : id = doomed
    · subst same
      cases memory with
      | menu => exact .deleted gone
      | clicked =>
        rw [remembered, clicked, known] at recalled
        split at recalled
        · cases recalled
        · next kept => exact absurd recalled (by simpa using kept)
    · obtain ⟨owned, noClass⟩ := coherent.owned_of_lost same known gone
      exact .withClass owned noClass
  | cleared _ _ clicked =>
    obtain rfl := isMenu clicked
    exact absurd rfl (uncleared rfl)
  | spared sparing applied _ _ =>
    rw [Engine.containsNode_of_sparing attends.clickable.sound sparing applied, known] at gone
    cases gone

theorem Attends.gone_of_strands {action : Action} {memory : Memory} {id : NodeId}
    (attends : viewer.Attends) (step : viewer.ActionStep files next action)
    (strands : viewer.Strands files id memory action) :
    next.engine.registry.containsNode id = false := by
  have coherent := attends.clickable.sound.coherent
  cases strands with
  | withClass owned noClass =>
    cases step with
    | deleted engine _ _ =>
      rw [engine, Engine.containsNode_deleteNode]
      exact coherent.lost_of_owned owned noClass
    | spared sparing _ _ _ => cases sparing
  | setApart stored different foreign =>
    cases step with
    | isolated engine _ _ =>
      rw [engine, Engine.containsNode_focusOnClass, ← Bool.not_eq_true,
        coherent.containsNode_focusOnClass stored]
      exact not_or.mpr ⟨different, foreign⟩
    | spared sparing _ _ _ => cases sparing
  | deleted gone =>
    cases step with
    | deleted engine _ _ =>
      rw [engine, Engine.containsNode_deleteNode]
      exact gone
    | spared sparing _ _ _ => cases sparing
  | replaced read gone =>
    cases step with
    | refused refused _ _ _ =>
      rw [read] at refused
      cases refused
    | opened readAgain engine _ _ =>
      obtain rfl := Except.ok.inj (read.symm.trans readAgain)
      rw [engine]
      exact gone
    | spared sparing _ _ _ => cases sparing
  | switched differs shown gone =>
    cases step with
    | unchanged same _ _ _ => exact absurd same differs
    | emptied _ closed _ _ _ =>
      rw [closed] at shown
      cases shown
    | reshown _ before engine _ _ =>
      obtain rfl := Option.some.inj (shown.symm.trans before)
      rw [engine]
      exact gone
    | spared sparing _ _ _ => cases sparing

/-- A node was taken off the map while the viewer remembered it, and the viewer
still remembers it after each further move, which has not brought it back. -/
inductive Stranded (files : FileReader) (start : Viewer R) (memory : Memory) (id : NodeId) :
    List (Move R) → Prop
  | strand {moves : List (Move R)} {viewer : Viewer R} {action : Action}
      (played : start.play files moves = .ok viewer) (recalled : viewer.remembered memory = some id)
      (known : viewer.engine.registry.containsNode id = true)
      (strands : viewer.Strands files id memory action) :
      Stranded files start memory id (moves ++ [.act action])
  | stay {moves : List (Move R)} {move : Move R} {viewer : Viewer R}
      (stranded : Stranded files start memory id moves)
      (played : start.play files (moves ++ [move]) = .ok viewer)
      (recalled : viewer.remembered memory = some id)
      (gone : viewer.engine.registry.containsNode id = false) :
      Stranded files start memory id (moves ++ [move])

/-! ## Runs -/

theorem Attends.move_cases {move : Move R} (attends : viewer.Attends)
    (moved : viewer.move files move = .ok next) :
    viewer.Looked next ∨ ∃ action, move = .act action ∧ next = viewer.apply files action := by
  cases move with
  | look input =>
    rw [Viewer.move] at moved
    rcases looked : viewer.look input with fault | ⟨actions, final⟩
    · rw [looked] at moved
      cases moved
    · rw [looked] at moved
      cases moved
      exact Or.inl (looked_of_look attends.clickable attends.unclicked looked)
  | act action => exact Or.inr ⟨action, rfl, (Except.ok.inj moved).symm⟩

theorem Attends.play {start viewer : Viewer R} {moves : List (Move R)} (attends : start.Attends)
    (played : start.play files moves = .ok viewer) :
    viewer.Attends := by
  induction moves using List.reverseRecOn generalizing viewer with
  | nil =>
    cases played
    exact attends
  | append_singleton moves move ih =>
    obtain ⟨before, playedBefore, moved⟩ := play_concat.mp played
    have held := ih playedBefore
    rcases held.move_cases moved with looked | ⟨action, rfl, rfl⟩
    · exact held.look looked
    · exact held.act (actionStep_of_apply files before action)

/-- What is stranded is gone. -/
theorem Stranded.gone {start viewer : Viewer R} {memory : Memory} {id : NodeId}
    {moves : List (Move R)} (attends : start.Attends)
    (stranded : Stranded files start memory id moves)
    (played : start.play files moves = .ok viewer) :
    viewer.engine.registry.containsNode id = false := by
  cases stranded with
  | @strand moves before action playedBefore _ _ strands =>
    obtain ⟨same, playedAgain, moved⟩ := play_concat.mp played
    obtain rfl := Except.ok.inj (playedBefore.symm.trans playedAgain)
    cases moved
    exact (attends.play playedBefore).gone_of_strands (actionStep_of_apply files before action)
      strands
  | stay _ playedAgain _ gone =>
    obtain rfl := Except.ok.inj (played.symm.trans playedAgain)
    exact gone

/-- What is remembered and gone was stranded, unless it is a menu that is about to
be closed because the map was cleared. -/
theorem stranded_of_gone {start viewer : Viewer R} {moves : List (Move R)} (attends : start.Attends)
    (fresh : ∀ memory, start.remembered memory = none)
    (played : start.play files moves = .ok viewer) {memory : Memory} {id : NodeId}
    (recalled : viewer.remembered memory = some id)
    (uncleared : memory = .menu → .sceneCleared ∉ viewer.engine.events.pending)
    (gone : viewer.engine.registry.containsNode id = false) :
    Stranded files start memory id moves := by
  induction moves using List.reverseRecOn generalizing viewer with
  | nil =>
    cases played
    rw [fresh] at recalled
    cases recalled
  | append_singleton moves move ih =>
    obtain ⟨before, playedBefore, moved⟩ := play_concat.mp played
    have held := attends.play playedBefore
    rcases held.move_cases moved with looked | ⟨action, rfl, rfl⟩
    · rcases looked.remembered memory id recalled with known | ⟨recalledBefore, unclearedBefore⟩
      · rw [looked.registry, known] at gone
        cases gone
      · have stranded := ih playedBefore recalledBefore unclearedBefore
          (looked.registry ▸ gone)
        exact .stay stranded played recalled gone
    · have step := actionStep_of_apply files before action
      obtain ⟨news, pending, _⟩ := step.obeys.announces
      have recalledBefore := remembered_of_apply files before action recalled
      cases known : before.engine.registry.containsNode id with
      | false =>
        have unclearedBefore : memory = .menu →
            .sceneCleared ∉ before.engine.events.pending := by
          intro isMenu waiting
          apply uncleared isMenu
          rw [pending]
          exact List.mem_append_left news waiting
        exact .stay (ih playedBefore recalledBefore unclearedBefore known)
          played recalled gone
      | true =>
        refine .strand playedBefore recalledBefore known
          (held.strands_of_step step known recalled gone ?_)
        rintro isMenu rfl
        apply uncleared isMenu
        exact List.mem_append_right _ List.mem_cons_self

/-! ## From the start -/

/-- A viewer over a diagram, with a payload if one is given. -/
def launch (files : FileReader) (engine : Engine R) (settings : ViewerSettings R)
    (path : Option PathName) : Viewer R :=
  let viewer : Viewer R :=
    { engine := (engine.setPerspective settings.perspective).2
      settings
      origin := .zero }
  match path with
  | some path => viewer.openPayload files path
  | none => viewer

theorem eq_launch_of_start {fonts : Fonts Float32} {settings : ViewerSettings Float32}
    {payload config : Option PathName} {viewer : Viewer Float32}
    (started : start fonts files settings payload config = .ok viewer) :
    viewer = launch files (Engine.create fonts files (settings.config files config)
      ⟨1280.0, 720.0⟩) settings (payload.or settings.lastPayload) := by
  unfold start at started
  cases opened : payload.or settings.lastPayload with
  | none =>
    rw [opened] at started
    exact (Except.ok.inj started).symm
  | some path =>
    rw [opened] at started
    exact eq_of_checked started

theorem attends_launch (files : FileReader) (config : EngineConfig R) (text : TextMetrics R)
    (layouter : Layouter R) (viewport : Vec R) (settings : ViewerSettings R)
    (path : Option PathName) :
    (launch files (Engine.withLayouter config text layouter viewport) settings path).Attends ∧
      ∀ memory,
        (launch files (Engine.withLayouter config text layouter viewport) settings path).remembered
          memory = none := by
  let engine := Engine.withLayouter config text layouter viewport
  let blank : Viewer R := { engine, settings, origin := .zero }
  let turned : Viewer R := { blank with engine := (engine.setPerspective settings.perspective).2 }
  have blankAttends : blank.Attends :=
    ⟨Engine.clickable_withLayouter config text layouter viewport, nofun, fun _ _ => rfl⟩
  have turns : blank.ActionStep files turned (.setPerspective settings.perspective) := by
    by_cases same : settings.perspective = engine.registry.perspective
    · refine .unchanged same ?_ rfl rfl
      change (engine.setPerspective settings.perspective).2 = engine
      rw [Engine.setPerspective, if_pos same]
    · exact .emptied same rfl rfl rfl rfl
  have turnedAttends := blankAttends.act turns
  have turnedFresh : ∀ memory, turned.remembered memory = none := by
    intro memory
    cases memory <;> rfl
  cases path with
  | none => exact ⟨turnedAttends, turnedFresh⟩
  | some path =>
    refine ⟨turnedAttends.act (actionStep_of_apply files turned (.openPayload path)), ?_⟩
    intro memory
    rw [← Option.not_isSome_iff_eq_none, Option.isSome_iff_exists]
    rintro ⟨id, recalled⟩
    have recalledBefore := remembered_of_apply files turned (.openPayload path) recalled
    rw [turnedFresh] at recalledBefore
    cases recalledBefore

/-- After any frames, once every event has been heard of, what the viewer
remembers is on the map, unless one of the moves has stranded it. -/
theorem remembered_on_map_iff (files : FileReader) (config : EngineConfig R)
    (text : TextMetrics R) (layouter : Layouter R) (viewport : Vec R)
    (settings : ViewerSettings R) (path : Option PathName) (inputs : List (FrameInput R))
    {start viewer : Viewer R} {memory : Memory} {id : NodeId}
    (launched :
      start = launch files (Engine.withLayouter config text layouter viewport) settings path)
    (ran : start.frames files inputs = .ok viewer) (heard : viewer.engine.events.pending = [])
    (recalled : viewer.remembered memory = some id) :
    viewer.engine.registry.containsNode id = true ↔
      ¬ Stranded files start memory id (start.journal files inputs) := by
  obtain ⟨attends, fresh⟩ := attends_launch files config text layouter viewport settings path
  rw [← launched] at attends fresh
  have played : start.play files (start.journal files inputs) = .ok viewer :=
    play_journal ran
  constructor
  · intro known stranded
    rw [stranded.gone attends played] at known
    cases known
  · intro unstranded
    by_contra unknown
    apply unstranded
    refine stranded_of_gone attends fresh played recalled ?_ (Bool.not_eq_true _ ▸ unknown)
    rw [heard]
    exact fun _ => List.not_mem_nil

/-- A file with one package. -/
def packageFile : FileReader :=
  fun _ => .ok (Text.Piece.ofString
    "\x7b\"nodes\":[\x7b\"id\":\"p\",\"labels\":[\"Package\"]\x7d]\x7d")

/-- A viewer that has opened the file. -/
def packageViewer [Approximations] : Viewer ℚ :=
  launch packageFile
    (Engine.withLayouter .standard (.monospace 12) (fun nodes _ => nodes.map fun node =>
      (node.id, ⟨0, 0⟩)) ⟨1280, 720⟩)
    { ViewerSettings.standard with perspective := .architecture } (some ⟨"map"⟩)

/-- A window with a panel on the left, in which every picture can be uploaded. -/
def packageWindow : Window ℚ where
  panelWidth _ := 240
  canvas _ := ⟨⟨240, 0⟩, ⟨960, 690⟩⟩
  uploads _ := true

/-- The menu of the package is opened, and the package is deleted on the panel. -/
def packageInputs : List (FrameInput ℚ) :=
  [{ window := packageWindow },
    { window := packageWindow
      pointer := [.pressed ⟨600, 345⟩ (some .secondary), .released ⟨600, 345⟩ (some .secondary)] },
    { window := packageWindow, press := .request (.delete "p") }]

/-- The menu is still open then, for a node that is gone. -/
theorem stranded_menu_sample :
    letI : Approximations := .sample
    ∃ viewer, packageViewer.frames packageFile packageInputs = .ok viewer ∧
      viewer.engine.events.pending = [] ∧ viewer.remembered .menu = some "p" ∧
      viewer.engine.registry.containsNode "p" = false ∧
      Stranded packageFile packageViewer .menu "p"
        (packageViewer.journal packageFile packageInputs) := by
  let _ : Approximations := .sample
  have seen : (packageViewer.frames packageFile packageInputs).toOption.map (fun viewer =>
      (viewer.engine.events.pending.isEmpty, viewer.remembered .menu,
        viewer.engine.registry.containsNode "p")) = some (true, some "p", false) := by
    decide +kernel
  cases ran : packageViewer.frames packageFile packageInputs with
  | error fault =>
    rw [ran] at seen
    cases seen
  | ok viewer =>
    rw [ran] at seen
    simp only [Except.toOption, Option.map_some, Option.some.injEq, Prod.mk.injEq,
      List.isEmpty_iff] at seen
    obtain ⟨heard, recalled, gone⟩ := seen
    refine ⟨viewer, rfl, heard, recalled, gone, ?_⟩
    by_contra unstranded
    have known := (remembered_on_map_iff packageFile _ _ _ _ _ _ packageInputs rfl ran heard
      recalled).mpr unstranded
    rw [gone] at known
    cases known

end Viewer

end CodeAtlas
