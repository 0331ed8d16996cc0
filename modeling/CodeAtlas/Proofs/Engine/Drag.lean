import CodeAtlas.Proofs.Engine.Gesture
import CodeAtlas.Proofs.Engine.Step

/-!
# A drag holds what it grabbed

A press grips the world point under the pointer.  Nothing moves until the way
travelled exceeds the threshold; the pan that starts the drag makes up for all
of that way, every later one follows the pointer, and the wheel scales the view
around the pointer.  So without rounding the point stays under the pointer for
as long as the drag lasts.
-/

namespace CodeAtlas

/-! ## The point under the pointer -/

namespace Camera

variable [Approximations]

/-- A view that is panned along with the pointer keeps the point under it. -/
theorem screenToWorld_pan (camera : Camera ℚ) (last screen : Vec ℚ) :
    (camera.pan (screen - last)).screenToWorld screen = camera.screenToWorld last := by
  rw [screenToWorld_eq, screenToWorld_eq, width_pan, height_pan, viewport_pan]
  change Vec.mk
      (camera.left - (screen.x - last.x) * camera.width / camera.viewport.x +
        screen.x / camera.viewport.x * camera.width)
      (camera.top - (screen.y - last.y) * camera.height / camera.viewport.y +
        screen.y / camera.viewport.y * camera.height) = _
  congr 1 <;> ring

/-- A view that is scaled around the point under the pointer keeps it there. -/
theorem screenToWorld_scaledAround (camera : Camera ℚ) (screen : Vec ℚ) (ratio : ℚ) :
    (camera.scaledAround (camera.screenToWorld screen) ratio).screenToWorld screen =
      camera.screenToWorld screen := by
  rw [screenToWorld_eq (camera.scaledAround _ _), width_scaledAround, height_scaledAround]
  simp only [scaledAround, screenToWorld_eq, Vec.mk.injEq]
  constructor <;> ring

theorem screenToWorld_zoom {camera next : Camera ℚ} {screen : Vec ℚ}
    {notches step minExtent maxExtent : ℚ} {changed : Bool}
    (zoomed : camera.zoom screen notches step minExtent maxExtent = .ok (changed, next)) :
    next.screenToWorld screen = camera.screenToWorld screen := by
  rcases zoom_cases zoomed with rfl | ⟨ratio, rfl⟩
  · rfl
  · exact camera.screenToWorld_scaledAround screen ratio

end Camera

/-! ## Inputs -/

/-- What a pointer that holds a button does: it moves, or the wheel is turned
where it is. -/
inductive DragInput (R : Type) where
  | move (screen : Vec R)
  | wheel (notches : R)

namespace DragInput

variable {R : Type}

/-- Where the pointer is in the end. -/
def latest (last : Vec R) : List (DragInput R) → Vec R
  | [] => last
  | .move screen :: rest => latest screen rest
  | .wheel _ :: rest => latest last rest

/-- The inputs as the diagram gets them. -/
def operations (last : Vec R) : List (DragInput R) → List (Engine.Operation R)
  | [] => []
  | .move screen :: rest => .pointerMove screen :: operations screen rest
  | .wheel notches :: rest => .wheel last notches :: operations last rest

theorem latest_append (last : Vec R) (inputs more : List (DragInput R)) :
    latest last (inputs ++ more) = latest (latest last inputs) more := by
  induction inputs generalizing last with
  | nil => rfl
  | cons input rest ih => cases input <;> exact ih _

theorem operations_append (last : Vec R) (inputs more : List (DragInput R)) :
    operations last (inputs ++ more) =
      operations last inputs ++ operations (latest last inputs) more := by
  induction inputs generalizing last with
  | nil => rfl
  | cons input rest ih =>
    cases input <;> exact congrArg (_ :: ·) (ih _)

theorem operations_moves (last : Vec R) (moves : List (Vec R)) :
    operations last (moves.map move) = moves.map .pointerMove := by
  induction moves generalizing last with
  | nil => rfl
  | cons screen rest ih => exact congrArg (_ :: ·) (ih screen)

theorem isViewing_of_mem_operations {last : Vec R} {inputs : List (DragInput R)}
    {operation : Engine.Operation R} (mem : operation ∈ operations last inputs) :
    operation.isViewing = true := by
  induction inputs generalizing last with
  | nil => cases mem
  | cons input rest ih =>
    cases input <;>
      exact (List.mem_cons.mp mem).elim (fun same => same ▸ rfl) ih

end DragInput

namespace Engine

/-! ## The grip -/

variable [Approximations]

/-- The pointer drags, and it is over a world point. -/
structure Grips (engine : Engine ℚ) (button : PointerButton) (last world : Vec ℚ) : Prop where
  phase : engine.pointer.phase = .dragging button last
  under : engine.camera.screenToWorld last = world

theorem Grips.pointerMove {engine : Engine ℚ} {button : PointerButton} {last world : Vec ℚ}
    (grips : engine.Grips button last world) (screen : Vec ℚ) :
    (engine.pointerMove screen).2.Grips button screen world := by
  have moved : engine.pointer.move screen =
      (.pan button (screen - last), { engine.pointer with phase := .dragging button screen }) := by
    simp only [PointerTracker.move, grips.phase]
  simp only [Engine.pointerMove, moved]
  constructor
  · rfl
  · exact (engine.camera.screenToWorld_pan last screen).trans grips.under

theorem Grips.wheel {engine next : Engine ℚ} {button : PointerButton} {last world : Vec ℚ}
    (grips : engine.Grips button last world) {notches : ℚ}
    (applied : engine.apply (.wheel last notches) = .ok next) : next.Grips button last world := by
  obtain ⟨changed, turned⟩ := exists_wheel_of_apply applied
  obtain ⟨camera, zoomed, rfl⟩ := exists_zoom_of_wheel turned
  exact ⟨grips.phase, (Camera.screenToWorld_zoom zoomed).trans grips.under⟩

theorem Grips.run {engine final : Engine ℚ} {button : PointerButton} {last world : Vec ℚ}
    (grips : engine.Grips button last world) {inputs : List (DragInput ℚ)}
    (ran : engine.run (DragInput.operations last inputs) = .ok final) :
    final.Grips button (DragInput.latest last inputs) world := by
  induction inputs generalizing engine last with
  | nil =>
    cases ran
    exact grips
  | cons input rest ih =>
    cases input with
    | move screen => exact ih (grips.pointerMove screen) ran
    | wheel notches =>
      cases applied : engine.apply (.wheel last notches) with
      | error fault =>
        rw [DragInput.operations, Engine.run, List.foldlM_cons, applied] at ran
        cases ran
      | ok next =>
        rw [DragInput.operations, run_cons applied] at ran
        exact ih (grips.wheel applied) ran

/-! ## From the press on -/

/-- How far a gesture has come that started with a press: nothing has moved yet,
or the point that was under the pointer is gripped. -/
inductive Holds (start : Engine ℚ) (button : PointerButton) (origin : Vec ℚ) :
    Engine ℚ → Vec ℚ → Prop where
  | pressed {engine : Engine ℚ} {last : Vec ℚ} (travelled : ℚ)
      (phase : engine.pointer.phase = .pressed button origin last travelled)
      (still : engine.camera = start.camera) : Holds start button origin engine last
  | dragging {engine : Engine ℚ} {last : Vec ℚ}
      (grips : engine.Grips button last (start.camera.screenToWorld origin)) :
      Holds start button origin engine last

theorem Holds.pointerMove {start engine : Engine ℚ} {button : PointerButton}
    {origin last : Vec ℚ} (holds : Holds start button origin engine last) (screen : Vec ℚ) :
    Holds start button origin (engine.pointerMove screen).2 screen := by
  cases holds with
  | dragging grips => exact .dragging (grips.pointerMove screen)
  | pressed travelled phase still =>
    by_cases beyond : engine.pointer.dragThreshold < travelled + (screen - last).length
    · have moved : engine.pointer.move screen = (.pan button (screen - origin),
          { engine.pointer with phase := .dragging button screen }) := by
        simp only [PointerTracker.move, phase, if_pos beyond]
      apply Holds.dragging
      simp only [Engine.pointerMove, moved]
      constructor
      · rfl
      · -- The whole way from the press is made up for at once.
        dsimp only
        rw [still]
        exact start.camera.screenToWorld_pan origin screen
    · have moved : engine.pointer.move screen = (.nothing, { engine.pointer with
          phase := .pressed button origin screen (travelled + (screen - last).length) }) := by
        simp only [PointerTracker.move, phase, if_neg beyond]
      apply Holds.pressed (travelled + (screen - last).length)
      · simp only [Engine.pointerMove, moved]
      · simp only [Engine.pointerMove, moved]
        exact still

theorem Holds.run_moves {start engine : Engine ℚ} {button : PointerButton}
    {origin last : Vec ℚ} (holds : Holds start button origin engine last)
    (moves : List (Vec ℚ)) :
    ∃ final, engine.run (moves.map .pointerMove) = .ok final ∧
      Holds start button origin final (DragInput.latest last (moves.map .move)) := by
  induction moves generalizing engine last with
  | nil => exact ⟨engine, rfl, holds⟩
  | cons screen rest ih => exact ih (holds.pointerMove screen)

/-- Moves that go beyond the threshold end with a grip on the point that was
under the pointer at the press. -/
theorem exists_grips_of_moves {engine : Engine ℚ} (idle : engine.pointer.phase = .idle)
    (button : PointerButton) (origin : Vec ℚ) {moves : List (Vec ℚ)}
    (started : ∃ way ∈ PointerTracker.travels 0.0 origin moves,
      engine.pointer.dragThreshold < way) :
    ∃ dragged, engine.run (.pointerDown origin button :: moves.map .pointerMove) = .ok dragged ∧
      dragged.Grips button (DragInput.latest origin (moves.map .move))
        (engine.camera.screenToWorld origin) := by
  have pressed : engine.apply (.pointerDown origin button) =
      .ok (engine.inPhase (.pressed button origin origin 0.0)) := by
    simp only [apply, pointerDown, PointerTracker.down, inPhase, idle]
  have during : ∀ input ∈ moves.map Operation.pointerMove, input.WhileHeld button := by
    intro input mem
    obtain ⟨screen, _, rfl⟩ := List.mem_map.mp mem
    exact .move screen
  have path : (moves.map Operation.pointerMove).filterMap Operation.target? = moves := by
    rw [List.filterMap_map]
    exact List.filterMap_some
  have begun : Holds engine button origin
      (engine.inPhase (.pressed button origin origin 0.0)) origin :=
    .pressed 0.0 rfl rfl
  obtain ⟨final, ran, holds⟩ := begun.run_moves moves
  refine ⟨final, (run_cons pressed _).trans ran, ?_⟩
  -- The gesture is a drag, so what it holds is a grip.
  rcases run_pressed engine origin origin 0.0 during with
    ⟨within, _⟩ | ⟨_, _, _, _, _, finish, _, _, _, _, dragged⟩
  · obtain ⟨way, mem, beyond⟩ := started
    rw [path] at within
    exact absurd beyond (within way mem)
  · cases ran.symm.trans dragged
    cases holds with
    | pressed _ phase _ => cases phase
    | dragging grips => exact grips

/-- The pointer is pressed while it is idle and moved until the gesture is a
drag; then it is moved on, and the wheel is turned under it, in any order.  From
then on the world point under the pointer is the one that was under it at the
press.  The inputs are taken whenever the limits of the zoom are in order. -/
theorem drag_holds_point (engine : Engine ℚ) (idle : engine.pointer.phase = .idle)
    (button : PointerButton) (origin : Vec ℚ) (moves : List (Vec ℚ))
    (started : ∃ way ∈ PointerTracker.travels 0.0 origin moves,
      engine.pointer.dragThreshold < way) (inputs : List (DragInput ℚ)) :
    let gesture := moves.map DragInput.move ++ inputs
    let latest := DragInput.latest origin gesture
    (engine.config.camera.minExtent ≤ engine.config.camera.maxExtent →
      ∃ final, engine.run (.pointerDown origin button :: DragInput.operations origin gesture) =
        .ok final) ∧
    ∀ final, engine.run (.pointerDown origin button :: DragInput.operations origin gesture) =
        .ok final →
      final.pointer.phase = .dragging button latest ∧
      final.camera.screenToWorld latest = engine.camera.screenToWorld origin := by
  intro gesture latest
  constructor
  · exact fun ordered =>
      (engine.pointerDown origin button).exists_run_of_viewing ordered fun _ mem =>
        DragInput.isViewing_of_mem_operations mem
  · intro final ran
    obtain ⟨dragged, ranMoves, grips⟩ := exists_grips_of_moves idle button origin started
    have split : .pointerDown origin button :: DragInput.operations origin gesture =
        (.pointerDown origin button :: moves.map .pointerMove) ++
          DragInput.operations (DragInput.latest origin (moves.map .move)) inputs := by
      rw [DragInput.operations_append, DragInput.operations_moves, List.cons_append]
    rw [split, run_append_of_ok ranMoves] at ran
    have gripped := grips.run ran
    rw [← DragInput.latest_append] at gripped
    exact ⟨gripped.phase, gripped.under⟩

omit [Approximations] in
/-- Two moves start the drag, the first one within the threshold; then the wheel
is turned, and the pointer moves on. -/
theorem drag_holds_sample :
    letI : Approximations := .sample
    let start : Engine ℚ := standardStart ⟨800, 600⟩
    ∃ final, start.run [.pointerDown ⟨100, 100⟩ .primary, .pointerMove ⟨103, 100⟩,
        .pointerMove ⟨103, 104⟩, .wheel ⟨103, 104⟩ 2, .pointerMove ⟨200, 50⟩] = .ok final ∧
      final.pointer.phase = .dragging .primary ⟨200, 50⟩ ∧
      final.camera.screenToWorld ⟨200, 50⟩ = start.camera.screenToWorld ⟨100, 100⟩ := by
  let _ : Approximations := .sample
  intro start
  have first : ((⟨103, 100⟩ : Vec ℚ) - ⟨100, 100⟩).length = 3 := by
    change Rat.sqrt ((103 - 100) * (103 - 100) + (100 - 100) * (100 - 100)) = 3
    have square : ((103 : ℚ) - 100) * (103 - 100) + (100 - 100) * (100 - 100) = 3 * 3 := by norm_num
    rw [square, Rat.sqrt_eq]
    exact abs_of_pos (by norm_num)
  have second : ((⟨103, 104⟩ : Vec ℚ) - ⟨103, 100⟩).length = 4 := by
    change Rat.sqrt ((103 - 103) * (103 - 103) + (104 - 100) * (104 - 100)) = 4
    have square : ((103 : ℚ) - 103) * (103 - 103) + (104 - 100) * (104 - 100) = 4 * 4 := by norm_num
    rw [square, Rat.sqrt_eq]
    exact abs_of_pos (by norm_num)
  have started : ∃ way ∈ PointerTracker.travels 0.0 ⟨100, 100⟩ [⟨103, 100⟩, ⟨103, 104⟩],
      start.pointer.dragThreshold < way := by
    refine ⟨_, List.mem_cons_of_mem _ List.mem_cons_self, ?_⟩
    change (4.0 : ℚ) < 0.0 + Vec.length _ + Vec.length _
    rw [first, second]
    norm_num
  obtain ⟨taken, held⟩ := drag_holds_point start rfl .primary ⟨100, 100⟩
    [⟨103, 100⟩, ⟨103, 104⟩] started [.wheel 2, .move ⟨200, 50⟩]
  obtain ⟨final, ran⟩ := taken (by decide +kernel)
  exact ⟨final, ran, held final ran⟩

end Engine

end CodeAtlas
