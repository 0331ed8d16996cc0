import CodeAtlas.Proofs.Engine.Clicks
import CodeAtlas.Viewer.Frame

/-!
# A frame, move by move

In a frame the user looks at the diagram and moves the pointer over it, and then
everything that was asked for is done.  So frames are runs of two kinds of moves.
A look leaves the map alone and has every event dispatched; what the viewer
remembers afterwards it remembered before, or it was clicked just now.
-/

namespace CodeAtlas

variable {R : Type} [Scalar R] {viewer next : Viewer R}

/-- Where the viewer remembers a node: as the one that was clicked last, or as
the one that its menu is for. -/
inductive Memory where
  | clicked
  | menu
deriving DecidableEq, Repr

namespace Viewer

/-- The node that is remembered. -/
def remembered (viewer : Viewer R) : Memory → Option NodeId
  | .clicked => viewer.clicked
  | .menu => viewer.menu.map ContextMenu.id

/-! ## Moves -/

/-- A frame up to what the user has asked for, which is left to be done. -/
def look (viewer : Viewer R) (input : FrameInput R) : Except Fault (List Action × Viewer R) := do
  let leaving :=
    if input.escape && viewer.menu.isNone && viewer.engine.isSequence then [Action.exitSequence]
    else []
  let (asked, viewer) := viewer.drawPanels input
  let viewer ← viewer.drawCanvas input
  let (chosen, viewer) := viewer.dispatch.drawMenu input
  pure (leaving ++ asked ++ chosen, viewer)

/-- A look at the diagram, or an action that is done. -/
inductive Move (R : Type) where
  | look (input : FrameInput R)
  | act (action : Action)

def move (files : FileReader) (viewer : Viewer R) : Move R → Except Fault (Viewer R)
  | .look input => (viewer.look input).map Prod.snd
  | .act action => .ok (viewer.apply files action)

/-- The viewer after some moves, the first one first, unless one of them fails. -/
def play (files : FileReader) (viewer : Viewer R) (moves : List (Move R)) :
    Except Fault (Viewer R) :=
  moves.foldlM (move files) viewer

/-- The moves of some frames. -/
def journal (files : FileReader) (viewer : Viewer R) : List (FrameInput R) → List (Move R)
  | [] => []
  | input :: rest =>
    .look input :: match viewer.look input with
      | .error _ => []
      | .ok (actions, next) =>
        actions.map .act ++ (actions.foldl (apply files) next).journal files rest

theorem play_concat {files : FileReader} {start next : Viewer R} {moves : List (Move R)}
    {move : Move R} :
    start.play files (moves ++ [move]) = .ok next ↔
      ∃ viewer, start.play files moves = .ok viewer ∧ viewer.move files move = .ok next :=
  foldlM_concat_eq_ok

theorem play_acts_append (files : FileReader) (viewer : Viewer R) (actions : List Action)
    (moves : List (Move R)) :
    viewer.play files (actions.map .act ++ moves) =
      (actions.foldl (apply files) viewer).play files moves := by
  induction actions generalizing viewer with
  | nil => rfl
  | cons action rest ih => exact ih (viewer.apply files action)

omit [Scalar R] in
theorem eq_of_checked (checked : viewer.checked = .ok next) : next = viewer := by
  unfold Viewer.checked at checked
  split at checked
  · exact (Except.ok.inj checked).symm
  · cases checked

/-- A frame is a look, the actions that were asked for, and a check. -/
theorem look_of_frame {files : FileReader} {input : FrameInput R}
    (framed : viewer.frame files input = .ok next) :
    ∃ actions looked, viewer.look input = .ok (actions, looked) ∧
      next = actions.foldl (apply files) looked := by
  unfold frame at framed
  unfold look
  dsimp only at framed ⊢
  cases drawn : (viewer.drawPanels input).2.drawCanvas input with
  | error fault =>
    rw [drawn] at framed
    cases framed
  | ok looked =>
    rw [drawn] at framed
    refine ⟨_, _, rfl, ?_⟩
    exact eq_of_checked framed

/-- Frames that go well can be played move by move. -/
theorem play_journal {files : FileReader} {viewer final : Viewer R} {inputs : List (FrameInput R)}
    (ran : viewer.frames files inputs = .ok final) :
    viewer.play files (viewer.journal files inputs) = .ok final := by
  induction inputs generalizing viewer with
  | nil => exact ran
  | cons input rest ih =>
    rw [frames, List.foldlM_cons] at ran
    cases framed : viewer.frame files input with
    | error fault =>
      rw [framed] at ran
      cases ran
    | ok next =>
      rw [framed] at ran
      obtain ⟨actions, looked, seen, rfl⟩ := look_of_frame framed
      rw [journal, play, List.foldlM_cons, move, seen]
      exact (play_acts_append files looked actions _).trans (ih ran)

/-! ## The canvas -/

/-- The diagram was looked at, and nothing else has changed that matters here. -/
structure Peeks (viewer next : Viewer R) : Prop where
  clicked : next.clicked = viewer.clicked
  menu : next.menu = viewer.menu
  payload : next.payload = viewer.payload
  engine : ∃ operations, (∀ operation ∈ operations, operation.isViewing = true) ∧
    viewer.engine.run operations = .ok next.engine

theorem Peeks.refl (viewer : Viewer R) : viewer.Peeks viewer :=
  ⟨rfl, rfl, rfl, [], by simp, rfl⟩

theorem Peeks.trans {viewer next final : Viewer R} (first : viewer.Peeks next)
    (second : next.Peeks final) : viewer.Peeks final := by
  obtain ⟨operations, viewing, ran⟩ := first.engine
  obtain ⟨more, moreViewing, continued⟩ := second.engine
  refine ⟨second.clicked.trans first.clicked, second.menu.trans first.menu,
    second.payload.trans first.payload, operations ++ more, ?_, ?_⟩
  · intro operation mem
    exact (List.mem_append.mp mem).elim (viewing operation) (moreViewing operation)
  · rw [Engine.run_append_of_ok ran, continued]

/-- One operation of the pointer or the camera. -/
theorem peeks_of_apply {viewer : Viewer R} (operation : Engine.Operation R) {engine : Engine R}
    (viewing : operation.isViewing = true) (applied : viewer.engine.apply operation = .ok engine)
    (pointerInside needsFit : Bool) :
    viewer.Peeks { viewer with engine, pointerInside, needsFit } :=
  ⟨rfl, rfl, rfl, [operation], by simpa using viewing, Engine.run_cons applied []⟩

theorem peeks_fitCanvas (canvas : Rect R) (viewer : Viewer R) :
    viewer.Peeks (viewer.fitCanvas canvas) := by
  have resized : viewer.Peeks { viewer with
      engine := (viewer.engine.resize canvas.width canvas.height).2
      needsFit := false } :=
    peeks_of_apply (.resize canvas.width canvas.height) rfl rfl _ _
  unfold fitCanvas
  dsimp only
  split
  · exact resized.trans (peeks_of_apply .fitToContent rfl rfl _ _)
  · exact resized

theorem peeks_forward (canvas : Rect R) (viewer : Viewer R) (input : PointerInput R) :
    viewer.Peeks (viewer.forward canvas input) := by
  cases input with
  | moved position =>
    unfold forward
    dsimp only
    split
    · exact peeks_of_apply (.pointerMove (position - canvas.min)) rfl rfl _ _
    · split
      · exact peeks_of_apply .pointerLeave rfl rfl _ _
      · exact Peeks.refl viewer
  | pressed position button =>
    cases button with
    | none => exact Peeks.refl viewer
    | some button =>
      unfold forward
      dsimp only
      split
      · exact peeks_of_apply (.pointerDown (position - canvas.min) button) rfl rfl _ _
      · exact Peeks.refl viewer
  | released position button =>
    cases button with
    | none => exact Peeks.refl viewer
    | some button =>
      exact peeks_of_apply (.pointerUp (position - canvas.min) button) rfl rfl _ _
  | gone => exact peeks_of_apply .pointerLeave rfl rfl _ _

theorem peeks_foldl_forward (canvas : Rect R) (viewer : Viewer R) (inputs : List (PointerInput R)) :
    viewer.Peeks (inputs.foldl (forward canvas) viewer) := by
  induction inputs generalizing viewer with
  | nil => exact Peeks.refl viewer
  | cons input rest ih =>
    exact (peeks_forward canvas viewer input).trans (ih (viewer.forward canvas input))

theorem peeks_turnWheel {canvas : Rect R} {scroll : Option (Vec R × R)}
    (turned : viewer.turnWheel canvas scroll = .ok next) : viewer.Peeks next := by
  unfold turnWheel at turned
  split at turned
  · cases turned
    exact Peeks.refl viewer
  · next position points =>
      split at turned
      · cases turned
        exact Peeks.refl viewer
      · rcases wheeled : viewer.engine.wheel (position - canvas.min) (points / pointsPerNotch) with
          fault | ⟨changed, engine⟩
        · rw [wheeled] at turned
          cases turned
        · rw [wheeled] at turned
          cases turned
          apply peeks_of_apply (.wheel (position - canvas.min) (points / pointsPerNotch)) rfl
          rw [Engine.apply, wheeled]
          rfl

theorem peeks_drawCanvas {input : FrameInput R}
    (drawn : viewer.drawCanvas input = .ok next) : viewer.Peeks next := by
  let canvas := input.window.canvas viewer
  unfold drawCanvas at drawn
  change (do let viewer ← turnWheel canvas _ _; _) = _ at drawn
  cases turned : (input.pointer.foldl (forward canvas) (viewer.fitCanvas canvas)).turnWheel canvas
      input.scroll with
  | error fault =>
    rw [turned] at drawn
    cases drawn
  | ok turnedTo =>
    rw [turned] at drawn
    have peeks := ((peeks_fitCanvas canvas viewer).trans
      (peeks_foldl_forward canvas _ input.pointer)).trans (peeks_turnWheel turned)
    -- The pictures of labels are of no concern.
    change ({ turnedTo with origin := canvas.min } : Viewer R).upload _ _ = .ok next at drawn
    unfold upload at drawn
    dsimp only at drawn
    split at drawn
    · cases drawn
      exact ⟨peeks.clicked, peeks.menu, peeks.payload, peeks.engine⟩
    · cases drawn

/-! ## Events and the menu -/

/-- An event can have the viewer remember the node that was clicked; and no menu
is kept when the scene is cleared. -/
theorem remembered_handle {viewer : Viewer R} {event : Event R} {memory : Memory} {id : NodeId}
    (recalled : (viewer.handle event).remembered memory = some id) :
    event.node? = some id ∨
      viewer.remembered memory = some id ∧ (memory = .menu → event ≠ .sceneCleared) := by
  cases event with
  | nodeClicked clicked =>
    cases memory with
    | clicked => exact Or.inl recalled
    | menu => cases recalled
  | nodeRightClicked clicked labels x y =>
    cases memory with
    | clicked => exact Or.inr ⟨recalled, nofun⟩
    | menu => exact Or.inl recalled
  | headerClicked clicked =>
    cases memory with
    | clicked => exact Or.inl recalled
    | menu => exact Or.inr ⟨recalled, nofun⟩
  | sceneCleared =>
    cases memory with
    | clicked => exact Or.inr ⟨recalled, nofun⟩
    | menu => cases recalled
  | sequenceEntered root count =>
    cases memory with
    | clicked => exact Or.inr ⟨recalled, nofun⟩
    | menu => cases recalled
  | callArrowClicked call => cases memory <;> exact Or.inr ⟨recalled, nofun⟩
  | perspectiveChanged perspective => cases memory <;> exact Or.inr ⟨recalled, nofun⟩
  | sequenceExited => cases memory <;> exact Or.inr ⟨recalled, nofun⟩

theorem remembered_foldl_handle {viewer : Viewer R} {events : List (Event R)} {memory : Memory}
    {id : NodeId} (recalled : (events.foldl handle viewer).remembered memory = some id) :
    (∃ event ∈ events, event.node? = some id) ∨
      viewer.remembered memory = some id ∧ (memory = .menu → .sceneCleared ∉ events) := by
  induction events generalizing viewer with
  | nil => exact Or.inr ⟨recalled, fun _ => List.not_mem_nil⟩
  | cons event rest ih =>
    rcases ih recalled with ⟨later, mem, named⟩ | ⟨handled, later⟩
    · exact Or.inl ⟨later, List.mem_cons_of_mem _ mem, named⟩
    · rcases remembered_handle handled with named | ⟨before, now⟩
      · exact Or.inl ⟨event, List.mem_cons_self, named⟩
      · refine Or.inr ⟨before, fun isMenu cleared => ?_⟩
        rcases List.mem_cons.mp cleared with rfl | clearedLater
        · exact now isMenu rfl
        · exact later isMenu clearedLater

theorem kept_foldl_handle (viewer : Viewer R) (events : List (Event R)) :
    (events.foldl handle viewer).engine = viewer.engine ∧
      (events.foldl handle viewer).payload = viewer.payload := by
  induction events generalizing viewer with
  | nil => exact ⟨rfl, rfl⟩
  | cons event rest ih =>
    obtain ⟨engine, payload⟩ := ih (viewer.handle event)
    cases event <;> exact ⟨engine, payload⟩

omit [Scalar R] in
/-- Drawing the menu closes it or leaves it alone. -/
theorem drawMenu_cases (viewer : Viewer R) (input : FrameInput R) :
    (viewer.drawMenu input).2 = viewer ∨
      (viewer.drawMenu input).2 = { viewer with menu := none } := by
  unfold drawMenu
  split
  · exact Or.inl rfl
  · exact Or.inr rfl
  · dsimp only
    split
    · exact Or.inr rfl
    · exact Or.inl rfl

/-! ## Looks -/

/-- What is left of a look. -/
structure Looked (viewer next : Viewer R) : Prop where
  registry : next.engine.registry = viewer.engine.registry
  clickable : next.engine.Clickable
  heard : next.engine.events.pending = []
  payload : next.payload = viewer.payload
  remembered : ∀ memory id, next.remembered memory = some id →
    viewer.engine.registry.containsNode id = true ∨
      viewer.remembered memory = some id ∧
        (memory = .menu → .sceneCleared ∉ viewer.engine.events.pending)

/-- Whoever looks hears of clicks on nodes of the map only, unless other clicks
were told before. -/
theorem Peeks.looked_dispatch (peeks : viewer.Peeks next) (clickable : viewer.engine.Clickable)
    (unclicked : ∀ event ∈ viewer.engine.events.pending, event.node? = none) :
    viewer.Looked next.dispatch := by
  obtain ⟨operations, viewing, ran⟩ := peeks.engine
  obtain ⟨reg, news, pending, told⟩ := clickable.announces_of_looking viewing ran
  obtain ⟨engine, payload⟩ := kept_foldl_handle next next.engine.events.pending
  have clickableNext := clickable.run ran
  have dispatched : next.dispatch.engine = { next.engine with events := ⟨[]⟩ } :=
    congrArg (fun engine => { engine with events := ⟨[]⟩ }) engine
  constructor
  · rw [dispatched]
    exact reg
  · rw [dispatched]
    exact ⟨clickableNext.sound.of_same rfl rfl, clickableNext.laned, clickableNext.regions,
      clickableNext.selectable⟩
  · rw [dispatched]
  · exact payload.trans peeks.payload
  · intro memory id recalled
    have same : next.remembered memory = viewer.remembered memory := by
      cases memory with
      | clicked => exact peeks.clicked
      | menu => exact congrArg (Option.map ContextMenu.id) peeks.menu
    have handled : (next.engine.events.pending.foldl handle next).remembered memory = some id := by
      cases memory <;> exact recalled
    rcases remembered_foldl_handle handled with ⟨event, mem, named⟩ | ⟨before, uncleared⟩
    · rw [pending] at mem
      rcases List.mem_append.mp mem with old | new
      · rw [unclicked event old] at named
        cases named
      · exact Or.inl (told event new id named)
    · refine Or.inr ⟨same ▸ before, fun isMenu cleared => uncleared isMenu ?_⟩
      rw [pending]
      exact List.mem_append_left _ cleared

omit [Scalar R] in
theorem Looked.drawMenu (looked : viewer.Looked next)
    (input : FrameInput R) : viewer.Looked (next.drawMenu input).2 := by
  rcases drawMenu_cases next input with same | closed
  · rw [same]
    exact looked
  · rw [closed]
    refine ⟨looked.registry, looked.clickable, looked.heard, looked.payload, ?_⟩
    intro memory id recalled
    cases memory with
    | clicked => exact looked.remembered .clicked id recalled
    | menu => cases recalled

theorem peeks_drawPanels (viewer : Viewer R) (input : FrameInput R) :
    viewer.Peeks (viewer.drawPanels input).2 := by
  unfold drawPanels
  cases input.press <;> exact ⟨rfl, rfl, rfl, [], by simp, rfl⟩

theorem looked_of_look (clickable : viewer.engine.Clickable)
    (unclicked : ∀ event ∈ viewer.engine.events.pending, event.node? = none) {input : FrameInput R}
    {actions : List Action}
    (looked : viewer.look input = .ok (actions, next)) : viewer.Looked next := by
  unfold look at looked
  dsimp only at looked
  cases drawn : (viewer.drawPanels input).2.drawCanvas input with
  | error fault =>
    rw [drawn] at looked
    cases looked
  | ok drawnTo =>
    rw [drawn] at looked
    obtain ⟨_, rfl⟩ := Prod.mk.inj (Except.ok.inj looked)
    have peeks := (peeks_drawPanels viewer input).trans (peeks_drawCanvas drawn)
    exact (peeks.looked_dispatch clickable unclicked).drawMenu input

end Viewer

end CodeAtlas
