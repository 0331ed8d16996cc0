import CodeAtlas.Proofs.Engine.Run

/-!
# Gestures

From the press of a button to its release, whatever else the pointer does in
between.  As long as the way travelled stays within the threshold nothing moves,
and the release is a click.  The first movement beyond it turns the gesture into
a drag, which only moves the camera.
-/

namespace CodeAtlas

variable {R : Type} [Scalar R]

/-- The way travelled at each position of a path, added up along the path. -/
def PointerTracker.travels (travelled : R) (last : Vec R) : List (Vec R) → List R
  | [] => []
  | position :: rest =>
    let further := travelled + (position - last).length
    further :: travels further position rest

/-- The camera after the pointer has dragged it along a path. -/
def Camera.follow (camera : Camera R) (last : Vec R) : List (Vec R) → Camera R
  | [] => camera
  | position :: rest => (camera.pan (position - last)).follow position rest

theorem PointerTracker.travels_append (travelled : R) (last : Vec R) (path more : List (Vec R)) :
    travels travelled last path <+: travels travelled last (path ++ more) := by
  induction path generalizing travelled last with
  | nil => exact List.nil_prefix
  | cons position rest ih =>
    exact List.cons_prefix_cons.mpr ⟨rfl, ih _ _⟩

namespace Engine

/-- What the release of a button does that was not dragged. -/
def clickWith (engine : Engine R) (button : PointerButton) (screen : Vec R) : Engine R :=
  match button with
  | .primary => (engine.click screen).2
  | .secondary => engine.rightClick screen
  | .middle => engine

namespace Operation

/-- The position that the pointer moves to. -/
def target? : Operation R → Option (Vec R)
  | .pointerMove screen => some screen
  | _ => none

/-- What the pointer can do while a button is held: move, press any button, and
release other ones. -/
inductive WhileHeld (button : PointerButton) : Operation R → Prop
  | move (screen : Vec R) : WhileHeld button (.pointerMove screen)
  | press (screen : Vec R) (other : PointerButton) : WhileHeld button (.pointerDown screen other)
  | release (screen : Vec R) {other : PointerButton} (different : button ≠ other) :
      WhileHeld button (.pointerUp screen other)

end Operation

/-! ## Single inputs -/

/-- The engine in the middle of a gesture. -/
def inPhase (engine : Engine R) (phase : PointerPhase R) : Engine R :=
  { engine with pointer := { engine.pointer with phase } }

/-- While a button is held, presses and releases of other buttons are passed
over. -/
theorem apply_of_not_move {engine : Engine R} {button : PointerButton}
    (held : (∃ origin last travelled,
        engine.pointer.phase = .pressed button origin last travelled) ∨
      ∃ last, engine.pointer.phase = .dragging button last)
    {input : Operation R} (during : input.WhileHeld button) (still : input.target? = none) :
    engine.apply input = .ok engine := by
  cases during with
  | move screen => cases still
  | press screen other =>
    simp only [apply, pointerDown, PointerTracker.down]
    rcases held with ⟨origin, last, travelled, phase⟩ | ⟨last, phase⟩
    · rw [phase]
    · rw [phase]
  | release screen different =>
    simp only [apply, pointerUp, PointerTracker.up]
    rcases held with ⟨origin, last, travelled, phase⟩ | ⟨last, phase⟩
    · simp only [phase, if_neg different]
    · simp only [phase, if_neg different]

theorem apply_move_within (engine : Engine R) {button : PointerButton} {origin last screen : Vec R}
    {travelled : R}
    (within : ¬ engine.pointer.dragThreshold < travelled + (screen - last).length) :
    (engine.inPhase (.pressed button origin last travelled)).apply (.pointerMove screen) =
      .ok (engine.inPhase
        (.pressed button origin screen (travelled + (screen - last).length))) := by
  have moved : (engine.inPhase (.pressed button origin last travelled)).pointer.move screen =
      (.nothing, { engine.pointer with
        phase := .pressed button origin screen (travelled + (screen - last).length) }) :=
    if_neg within
  simp only [apply, pointerMove, moved]
  rfl

theorem apply_move_beyond (engine : Engine R) {button : PointerButton} {origin last screen : Vec R}
    {travelled : R}
    (beyond : engine.pointer.dragThreshold < travelled + (screen - last).length) :
    (engine.inPhase (.pressed button origin last travelled)).apply (.pointerMove screen) =
      .ok ({ engine with camera := engine.camera.pan (screen - origin) }.inPhase
        (.dragging button screen)) := by
  have moved : (engine.inPhase (.pressed button origin last travelled)).pointer.move screen =
      (.pan button (screen - origin), { engine.pointer with phase := .dragging button screen }) :=
    if_pos beyond
  simp only [apply, pointerMove, moved]
  rfl

/-! ## Whole gestures -/

/-- A drag follows the path and changes nothing but the camera. -/
theorem run_dragging (engine : Engine R) {button : PointerButton} (last : Vec R)
    {inputs : List (Operation R)} (during : ∀ input ∈ inputs, input.WhileHeld button) :
    ∃ finish, (engine.inPhase (.dragging button last)).run inputs =
      .ok ({ engine with
        camera := engine.camera.follow last (inputs.filterMap Operation.target?) }.inPhase
          (.dragging button finish)) := by
  induction inputs generalizing engine last with
  | nil => exact ⟨last, rfl⟩
  | cons input rest ih =>
    have restDuring : ∀ later ∈ rest, later.WhileHeld button :=
      fun later mem => during later (List.mem_cons_of_mem _ mem)
    cases moved : input.target? with
    | none =>
      rw [run_cons (apply_of_not_move (Or.inr ⟨last, rfl⟩)
        (during input List.mem_cons_self) moved), List.filterMap_cons_none moved]
      exact ih engine last restDuring
    | some screen =>
      obtain rfl : input = .pointerMove screen := by
        cases input <;> cases moved
        rfl
      rw [List.filterMap_cons_some moved]
      exact ih { engine with camera := engine.camera.pan (screen - last) }
        screen restDuring

/-- A held button stays a possible click, or the path has a first position beyond
the threshold, from which on it is a drag. -/
theorem run_pressed (engine : Engine R) {button : PointerButton} (origin last : Vec R)
    (travelled : R) {inputs : List (Operation R)}
    (during : ∀ input ∈ inputs, input.WhileHeld button) :
    ((∀ way ∈ PointerTracker.travels travelled last (inputs.filterMap Operation.target?),
        ¬ engine.pointer.dragThreshold < way) ∧
      ∃ finish way, (engine.inPhase (.pressed button origin last travelled)).run inputs =
        .ok (engine.inPhase (.pressed button origin finish way))) ∨
    ∃ before turn after short far finish,
      inputs.filterMap Operation.target? = before ++ turn :: after ∧
      PointerTracker.travels travelled last (before ++ [turn]) = short ++ [far] ∧
      (∀ way ∈ short, ¬ engine.pointer.dragThreshold < way) ∧
      engine.pointer.dragThreshold < far ∧
      (engine.inPhase (.pressed button origin last travelled)).run inputs =
        .ok ({ engine with
          camera := (engine.camera.pan (turn - origin)).follow turn after }.inPhase
            (.dragging button finish)) := by
  induction inputs generalizing last travelled with
  | nil => exact Or.inl ⟨by simp [PointerTracker.travels], last, travelled, rfl⟩
  | cons input rest ih =>
    have restDuring : ∀ later ∈ rest, later.WhileHeld button :=
      fun later mem => during later (List.mem_cons_of_mem _ mem)
    cases moved : input.target? with
    | none =>
      rw [run_cons (apply_of_not_move (Or.inl ⟨origin, last, travelled, rfl⟩)
        (during input List.mem_cons_self) moved), List.filterMap_cons_none moved]
      exact ih last travelled restDuring
    | some screen =>
      obtain rfl : input = .pointerMove screen := by
        cases input <;> cases moved
        rfl
      rw [List.filterMap_cons_some moved]
      by_cases beyond :
          engine.pointer.dragThreshold < travelled + (screen - last).length
      · -- The drag starts here, and the rest of the path belongs to it.
        obtain ⟨finish, dragged⟩ := run_dragging
          { engine with camera := engine.camera.pan (screen - origin) } screen restDuring
        rw [run_cons (apply_move_beyond engine beyond)]
        exact Or.inr ⟨[], screen, rest.filterMap Operation.target?, [], _, finish, rfl, rfl,
          by simp, beyond, dragged⟩
      · rw [run_cons (apply_move_within engine beyond)]
        rcases ih screen (travelled + (screen - last).length) restDuring with
          ⟨within, finish, way, ran⟩ |
          ⟨before, turn, after, short, far, finish, path, ways, within, further, ran⟩
        · refine Or.inl ⟨?_, finish, way, ran⟩
          intro other mem
          rcases List.mem_cons.mp mem with rfl | later
          · exact beyond
          · exact within other later
        · refine Or.inr ⟨screen :: before, turn, after,
            (travelled + (screen - last).length) :: short, far, finish, ?_, ?_, ?_, further,
            ran⟩
          · rw [path, List.cons_append]
          · rw [List.cons_append, PointerTracker.travels, ways, List.cons_append]
          · intro other mem
            rcases List.mem_cons.mp mem with rfl | earlier
            · exact beyond
            · exact within other earlier

/-! ## The release -/

theorem run_concat_of_ok {engine mid : Engine R} {operations : List (Operation R)}
    (ran : engine.run operations = .ok mid) (operation : Operation R) :
    engine.run (operations ++ [operation]) = mid.apply operation := by
  rw [run_append_of_ok ran, run, List.foldlM_cons]
  exact bind_pure _

theorem apply_release_pressed {engine : Engine R} (idle : engine.pointer.phase = .idle)
    (button : PointerButton) (origin last release : Vec R) (travelled : R) :
    (engine.inPhase (.pressed button origin last travelled)).apply (.pointerUp release button) =
      .ok (engine.clickWith button release) := by
  have settled : engine.inPhase .idle = engine := by
    rw [inPhase, ← idle]
  have lifted : (engine.inPhase (.pressed button origin last travelled)).apply
      (.pointerUp release button) = .ok ((engine.inPhase .idle).clickWith button release) := by
    simp only [apply, pointerUp, PointerTracker.up, inPhase, if_true]
    cases button <;> rfl
  rw [lifted, settled]

theorem apply_release_dragging {engine : Engine R} (idle : engine.pointer.phase = .idle)
    (camera : Camera R) (button : PointerButton) (last release : Vec R) :
    ({ engine with camera }.inPhase (.dragging button last)).apply (.pointerUp release button) =
      .ok { engine with camera } := by
  simp only [apply, pointerUp, PointerTracker.up, inPhase, if_true]
  rw [← idle]

/-- A click publishes at most one event, and none for the middle button. -/
theorem events_clickWith (engine : Engine R) (button : PointerButton) (screen : Vec R) :
    ∃ published, (engine.clickWith button screen).events.pending =
        engine.events.pending ++ published ∧
      published.length ≤ 1 ∧ (button = .middle → published = []) := by
  have silent : ∃ published : List (Event R), engine.events.pending =
        engine.events.pending ++ published ∧
      published.length ≤ 1 ∧ (button = .middle → published = []) :=
    ⟨[], (List.append_nil _).symm, Nat.zero_le _, fun _ => rfl⟩
  cases button with
  | primary =>
    unfold clickWith click
    dsimp only
    split
    case h_6 =>
      split
      · exact ⟨[_], rfl, Nat.le_refl _, nofun⟩
      · exact silent
    case h_7 => exact silent
    case h_8 => exact silent
    case h_9 => exact silent
    all_goals exact ⟨[_], rfl, Nat.le_refl _, nofun⟩
  | secondary =>
    unfold clickWith rightClick
    dsimp only
    split
    · exact silent
    · exact ⟨[_], rfl, Nat.le_refl _, nofun⟩
  | middle => exact silent

/-- A click leaves camera, pointer and hovered part alone. -/
theorem still_clickWith (engine : Engine R) (button : PointerButton) (screen : Vec R) :
    (engine.clickWith button screen).camera = engine.camera ∧
      (engine.clickWith button screen).pointer = engine.pointer ∧
      (engine.clickWith button screen).interaction.hovered = engine.interaction.hovered := by
  cases button with
  | primary =>
    unfold clickWith click
    dsimp only
    split
    case h_6 => split <;> exact ⟨rfl, rfl, rfl⟩
    all_goals exact ⟨rfl, rfl, rfl⟩
  | secondary =>
    unfold clickWith rightClick
    dsimp only
    split <;> exact ⟨rfl, rfl, rfl⟩
  | middle => exact ⟨rfl, rfl, rfl⟩

/-- A gesture from an idle pointer ends with an idle pointer.  Either the way
travelled never exceeds the threshold: then nothing moves on the way, and the
release amounts to a click, which publishes at most one event, and none for the
middle button.  Or there is a first position beyond the threshold: then the
gesture moves the camera, by the whole way to that position and from there on
along the path, and does nothing else. -/
theorem gesture_clicks_or_drags (engine : Engine R) (idle : engine.pointer.phase = .idle)
    (button : PointerButton) (origin release : Vec R) (inputs : List (Operation R))
    (during : ∀ input ∈ inputs, input.WhileHeld button) :
    let path := inputs.filterMap Operation.target?
    let threshold := engine.pointer.dragThreshold
    ∃ final,
      engine.run (.pointerDown origin button :: inputs ++ [.pointerUp release button]) =
        .ok final ∧
      final.pointer.phase = .idle ∧
      (((∀ way ∈ PointerTracker.travels 0.0 origin path, ¬ threshold < way) ∧
        (∀ part, part <+: inputs → ∃ held,
          engine.run (.pointerDown origin button :: part) = .ok held ∧
          held.camera = engine.camera ∧
          held.interaction = engine.interaction ∧ held.events = engine.events) ∧
        final = engine.clickWith button release ∧
        final.camera = engine.camera ∧
        final.interaction.hovered = engine.interaction.hovered ∧
        ∃ published, final.events.pending = engine.events.pending ++ published ∧
          published.length ≤ 1 ∧ (button = .middle → published = [])) ∨
      ∃ before turn after short far,
        path = before ++ turn :: after ∧
        PointerTracker.travels 0.0 origin (before ++ [turn]) = short ++ [far] ∧
        (∀ way ∈ short, ¬ threshold < way) ∧ threshold < far ∧
        final.events = engine.events ∧
        final.interaction = engine.interaction ∧
        final.camera = (engine.camera.pan (turn - origin)).follow turn after) := by
  intro path threshold
  have pressed : engine.apply (.pointerDown origin button) =
      .ok (engine.inPhase (.pressed button origin origin 0.0)) := by
    simp only [apply, pointerDown, PointerTracker.down, inPhase, idle]
  rcases run_pressed engine origin origin 0.0 during with
    ⟨within, finish, way, ran⟩ |
    ⟨before, turn, after, short, far, finish, pathEq, ways, within, beyond, ran⟩
  · rw [← run_cons pressed] at ran
    refine ⟨engine.clickWith button release, ?_, ?_, Or.inl ⟨within, ?_, rfl, ?_, ?_, ?_⟩⟩
    · rw [run_concat_of_ok ran, apply_release_pressed idle]
    · rw [(still_clickWith engine button release).2.1, idle]
    · rintro part ⟨more, rfl⟩
      have partDuring : ∀ input ∈ part, input.WhileHeld button :=
        fun input mem => during input (List.mem_append_left _ mem)
      rw [run_cons pressed]
      rcases run_pressed engine origin origin 0.0 partDuring with
        ⟨_, partFinish, partWay, partRan⟩ |
        ⟨before, turn, after, short, far, _, pathEq, ways, _, beyond, _⟩
      · exact ⟨_, partRan, rfl, rfl, rfl⟩
      · -- The way to the turn would be one of the ways of the whole path.
        have early := PointerTracker.travels_append 0.0 origin (before ++ [turn])
          (after ++ more.filterMap Operation.target?)
        rw [ways] at early
        have wholePath : before ++ [turn] ++ (after ++ more.filterMap Operation.target?) =
            path := by
          simp [path, pathEq]
        rw [wholePath] at early
        exact absurd beyond (within far (early.subset (by simp)))
    · exact (still_clickWith engine button release).1
    · exact (still_clickWith engine button release).2.2
    · exact events_clickWith engine button release
  · rw [← run_cons pressed] at ran
    refine ⟨_, (run_concat_of_ok ran _).trans (apply_release_dragging idle _ button finish release),
      idle, Or.inr ⟨before, turn, after, short, far, pathEq, ways, within, beyond, rfl, rfl, rfl⟩⟩

/-- The middle button publishes nothing, whether it is a click or a drag, and
neither does another button that is pressed and released meanwhile. -/
theorem gesture_sample :
    ∃ final, sampleStart.run [.pointerDown ⟨1, 2⟩ .middle, .pointerDown ⟨1, 2⟩ .secondary,
        .pointerMove ⟨5, 6⟩, .pointerUp ⟨5, 6⟩ .secondary, .pointerUp ⟨3, 4⟩ .middle] =
          .ok final ∧
      final.pointer.phase = .idle ∧ final.events.pending = [] := by
  have during : ∀ input ∈ [.pointerDown ⟨1, 2⟩ .secondary, .pointerMove ⟨5, 6⟩,
      .pointerUp ⟨5, 6⟩ .secondary], (input : Operation Float32).WhileHeld .middle := by
    simp only [List.forall_mem_cons]
    exact ⟨.press _ _, .move _, .release _ (by decide), nofun⟩
  obtain ⟨final, ran, idle, ⟨_, _, _, _, _, published, events, _, silent⟩ |
      ⟨_, _, _, _, _, _, _, _, _, events, _⟩⟩ :=
    gesture_clicks_or_drags sampleStart rfl .middle ⟨1, 2⟩ ⟨3, 4⟩ _ during
  · rw [silent rfl] at events
    exact ⟨final, ran, idle, events⟩
  · refine ⟨final, ran, idle, ?_⟩
    rw [events]
    rfl

end Engine

end CodeAtlas
