import CodeAtlas.Engine.Operation
import CodeAtlas.Proofs.Registry.Ingest
import CodeAtlas.Proofs.Registry.Remove
import Mathlib.Data.List.Induction

/-!
# Runs of a diagram

Operations in any order, pointer input among them.  Each one builds the scene
anew, or leaves registry, mode and scene alone; only a call diagram that is
given up for an unknown method goes without a new scene.

Runs apply operations and go on whatever the size of what comes about.  Executions
stop there, and else they are runs: what holds after every run holds after every
execution.
-/

namespace CodeAtlas

variable {R : Type} [Scalar R] {engine next : Engine R}

/-- Steps that may fail can be cut before the last one. -/
theorem foldlM_concat_eq_ok {σ α ε : Type} {step : σ → α → Except ε σ} {start final : σ}
    {items : List α} {item : α} :
    (items ++ [item]).foldlM step start = .ok final ↔
      ∃ middle, items.foldlM step start = .ok middle ∧ step middle item = .ok final := by
  simp only [List.foldlM_append, List.foldlM_cons, List.foldlM_nil, bind_pure]
  cases items.foldlM step start with
  | error fault => simp [bind, Except.bind]
  | ok middle => simp [bind, Except.bind]

/-- Steps fail where the first of them does. -/
theorem foldlM_eq_error_iff {σ α ε : Type} {step : σ → α → Except ε σ} {start : σ}
    {items : List α} {fault : ε} :
    items.foldlM step start = .error fault ↔
      ∃ before item after state, items = before ++ item :: after ∧
        before.foldlM step start = .ok state ∧ step state item = .error fault := by
  constructor
  · intro failed
    induction items generalizing start with
    | nil => cases failed
    | cons item rest ih =>
      rw [List.foldlM_cons] at failed
      cases stepped : step start item with
      | error first =>
        rw [stepped] at failed
        cases failed
        exact ⟨[], item, rest, start, rfl, rfl, stepped⟩
      | ok next =>
        rw [stepped] at failed
        obtain ⟨before, last, after, state, rfl, reached, fails⟩ := ih failed
        refine ⟨item :: before, last, after, state, rfl, ?_, fails⟩
        rw [List.foldlM_cons, stepped]
        exact reached
  · rintro ⟨before, item, after, state, rfl, reached, fails⟩
    rw [List.foldlM_append, reached]
    change List.foldlM step state (item :: after) = _
    rw [List.foldlM_cons, fails]
    rfl

namespace Engine

/-- A run can be cut before its last operation. -/
theorem run_concat {start next : Engine R} {operations : List (Operation R)}
    {operation : Operation R} :
    start.run (operations ++ [operation]) = .ok next ↔
      ∃ engine, start.run operations = .ok engine ∧ engine.apply operation = .ok next :=
  foldlM_concat_eq_ok

theorem run_cons {operation : Operation R} (applied : engine.apply operation = .ok next)
    (operations : List (Operation R)) :
    engine.run (operation :: operations) = next.run operations := by
  rw [run, List.foldlM_cons, applied]
  rfl

theorem run_append_of_ok {engine middle : Engine R} {operations : List (Operation R)}
    (ran : engine.run operations = .ok middle) (more : List (Operation R)) :
    engine.run (operations ++ more) = middle.run more := by
  unfold run at ran ⊢
  rw [List.foldlM_append, ran]
  rfl

theorem run_setData {start engine : Engine R} {operations : List (Operation R)}
    (ran : start.run operations = .ok engine) (nodes : List Node)
    (links : List Relationship) :
    start.run (operations ++ [.setData nodes links]) =
      .ok (engine.setData nodes links).2 :=
  run_concat.mpr ⟨engine, ran, rfl⟩

/-- What holds at the start and is kept by every operation holds after every
run. -/
theorem run_induction {start engine : Engine R} {operations : List (Operation R)}
    {motive : Engine R → Prop} (initial : motive start)
    (step : ∀ (engine next : Engine R) (operation : Operation R), operation ∈ operations →
      motive engine → engine.apply operation = .ok next → motive next)
    (ran : start.run operations = .ok engine) : motive engine := by
  induction operations using List.reverseRecOn generalizing engine with
  | nil =>
    cases ran
    exact initial
  | append_singleton operations operation ih =>
    obtain ⟨before, ranBefore, applied⟩ := run_concat.mp ran
    have held : motive before :=
      ih
        (fun engine next other mem => step engine next other (List.mem_append_left _ mem))
        ranBefore
    exact step before engine operation (by simp) held applied

/-! ## Executions -/

omit [Scalar R] in
theorem checked_eq_ok_iff : engine.checked = .ok next ↔ next = engine ∧ engine.fits = true := by
  unfold checked
  split
  · next fits =>
      exact ⟨fun ok => ⟨(Except.ok.inj ok).symm, fits⟩, fun same => congrArg _ same.1.symm⟩
  · next large => exact ⟨nofun, fun same => absurd same.2 large⟩

theorem perform_eq_ok_iff {operation : Operation R} :
    engine.perform operation = .ok next ↔
      engine.apply operation = .ok next ∧ next.fits = true := by
  unfold perform
  cases engine.apply operation with
  | error fault => exact ⟨nofun, nofun⟩
  | ok applied =>
    refine checked_eq_ok_iff.trans ?_
    constructor
    · rintro ⟨rfl, fits⟩
      exact ⟨rfl, fits⟩
    · rintro ⟨⟨⟩, fits⟩
      exact ⟨rfl, fits⟩

/-- From a diagram that can be held, executing operations is running them as long
as everything on the way can be held. -/
theorem execute_eq_ok_iff {start engine : Engine R} (small : start.fits = true)
    {operations : List (Operation R)} :
    start.execute operations = .ok engine ↔ start.run operations = .ok engine ∧
      ∀ part, part <+: operations → ∀ state, start.run part = .ok state → state.fits = true := by
  induction operations using List.reverseRecOn generalizing engine with
  | nil =>
    constructor
    · intro executed
      refine ⟨executed, fun part none state ran => ?_⟩
      obtain rfl := List.prefix_nil.mp none
      cases ran
      exact small
    · exact And.left
  | append_singleton operations operation ih =>
    simp only [execute, foldlM_concat_eq_ok, perform_eq_ok_iff, List.prefix_concat_iff] at ih ⊢
    constructor
    · rintro ⟨middle, executed, applied, fits⟩
      obtain ⟨ran, held⟩ := ih.mp executed
      have whole := run_concat.mpr ⟨middle, ran, applied⟩
      refine ⟨whole, ?_⟩
      rintro part (rfl | shorter) state reached
      · obtain rfl := Except.ok.inj (whole.symm.trans reached)
        exact fits
      · exact held part shorter state reached
    · rintro ⟨ran, held⟩
      obtain ⟨middle, ranBefore, applied⟩ := run_concat.mp ran
      exact ⟨middle, ih.mpr ⟨ranBefore, fun part shorter => held part (.inr shorter)⟩, applied,
        held _ (.inl rfl) _ ran⟩

theorem run_of_execute {start : Engine R} (small : start.fits = true)
    {operations : List (Operation R)} (executed : start.execute operations = .ok engine) :
    start.run operations = .ok engine ∧ engine.fits = true :=
  have ⟨ran, held⟩ := (execute_eq_ok_iff small).mp executed
  ⟨ran, held _ List.prefix_rfl _ ran⟩

theorem fits_withLayouter (config : EngineConfig R) (text : TextMetrics R)
    (layouter : Layouter R) (viewport : Vec R) :
    (withLayouter config text layouter viewport).fits = true :=
  rfl

/-! ## Looking at a diagram -/

/-- Registry, mode, scene and hit tester are the same. -/
structure SameView (next engine : Engine R) : Prop where
  registry : next.registry = engine.registry
  mode : next.mode = engine.mode
  scene : next.scene = engine.scene
  hitTester : next.hitTester = engine.hitTester

theorem sameView_fitToContent (engine : Engine R) : engine.fitToContent.2.SameView engine := by
  unfold fitToContent
  split <;> exact ⟨rfl, rfl, rfl, rfl⟩

theorem interaction_fitToContent (engine : Engine R) :
    engine.fitToContent.2.interaction = engine.interaction := by
  unfold fitToContent
  split <;> rfl

section

variable (engine) (screen : Vec R)

theorem sameView_pointerMove : (engine.pointerMove screen).2.SameView engine := by
  unfold pointerMove
  dsimp only
  split <;> exact ⟨rfl, rfl, rfl, rfl⟩

theorem sameView_click : (engine.click screen).2.SameView engine := by
  unfold click
  dsimp only
  split
  case h_6 => split <;> exact ⟨rfl, rfl, rfl, rfl⟩
  all_goals exact ⟨rfl, rfl, rfl, rfl⟩

theorem sameView_rightClick : (engine.rightClick screen).SameView engine := by
  unfold rightClick
  split <;> exact ⟨rfl, rfl, rfl, rfl⟩

theorem sameView_pointerUp (button : PointerButton) :
    (engine.pointerUp screen button).2.SameView engine := by
  unfold pointerUp
  dsimp only
  split
  · have clicked := sameView_click { engine with pointer := (engine.pointer.up screen button).2 }
    exact ⟨(clicked _).registry, (clicked _).mode, (clicked _).scene, (clicked _).hitTester⟩
  · have clicked :=
      sameView_rightClick { engine with pointer := (engine.pointer.up screen button).2 }
    exact ⟨(clicked _).registry, (clicked _).mode, (clicked _).scene, (clicked _).hitTester⟩
  · exact ⟨rfl, rfl, rfl, rfl⟩

end

theorem exists_wheel_of_apply {screen : Vec R} {notches : R}
    (applied : engine.apply (.wheel screen notches) = .ok next) :
    ∃ changed, engine.wheel screen notches = .ok (changed, next) := by
  rw [apply] at applied
  rcases turned : engine.wheel screen notches with fault | ⟨changed, turnedTo⟩
  · rw [turned] at applied
    cases applied
  · rw [turned] at applied
    cases applied
    exact ⟨changed, rfl⟩

/-- The wheel zooms at the pointer. -/
theorem exists_zoom_of_wheel {screen : Vec R} {notches : R} {changed : Bool}
    (turned : engine.wheel screen notches = .ok (changed, next)) :
    ∃ camera, engine.camera.zoom screen notches engine.config.camera.zoomStep
        engine.config.camera.minExtent engine.config.camera.maxExtent = .ok (changed, camera) ∧
      next = { engine with camera } := by
  unfold wheel at turned
  dsimp only at turned
  rcases zoomed : engine.camera.zoom screen notches engine.config.camera.zoomStep
      engine.config.camera.minExtent engine.config.camera.maxExtent with fault | ⟨_, camera⟩
  · rw [zoomed] at turned
    cases turned
  · rw [zoomed] at turned
    cases turned
    exact ⟨camera, rfl, rfl⟩

/-- The wheel moves the camera only. -/
theorem apply_wheel_eq {screen : Vec R} {notches : R}
    (applied : engine.apply (.wheel screen notches) = .ok next) :
    ∃ camera, next = { engine with camera } := by
  obtain ⟨changed, turned⟩ := exists_wheel_of_apply applied
  obtain ⟨camera, _, moved⟩ := exists_zoom_of_wheel turned
  exact ⟨camera, moved⟩

/-- Whether an operation only moves the camera or the pointer. -/
def Operation.isViewing : Operation R → Bool
  | .fitToContent | .resize _ _ | .pointerDown _ _ | .pointerMove _ | .pointerUp _ _
  | .pointerLeave | .wheel _ _ => true
  | _ => false

theorem sameView_of_viewing {operation : Operation R} (viewing : operation.isViewing = true)
    (applied : engine.apply operation = .ok next) :
    next.SameView engine := by
  cases operation with
  | fitToContent =>
    cases applied
    exact sameView_fitToContent engine
  | resize width height =>
    cases applied
    exact ⟨rfl, rfl, rfl, rfl⟩
  | pointerDown screen button =>
    cases applied
    exact ⟨rfl, rfl, rfl, rfl⟩
  | pointerMove screen =>
    cases applied
    exact sameView_pointerMove engine screen
  | pointerUp screen button =>
    cases applied
    exact sameView_pointerUp engine screen button
  | pointerLeave =>
    cases applied
    exact ⟨rfl, rfl, rfl, rfl⟩
  | wheel screen notches =>
    obtain ⟨camera, rfl⟩ := apply_wheel_eq applied
    exact ⟨rfl, rfl, rfl, rfl⟩
  | _ => cases viewing

/-! ## Changing rows -/

/-- What an operation on toggles or focus does to the registry. -/
def rowsResult? (engine : Engine R) : Operation R → Option (Bool × Registry R)
  | .setToggle classId toggle enabled => some (engine.registry.setToggle classId toggle enabled)
  | .flipToggle classId toggle => some (engine.registry.flipToggle classId toggle)
  | .focusMethod methodId => some (engine.registry.focusMethod methodId)
  | .restoreMethods classId => some (engine.registry.restoreMethods classId)
  | _ => none

theorem apply_of_rows {operation : Operation R} {change : Bool × Registry R}
    (rows : engine.rowsResult? operation = some change) :
    engine.apply operation = .ok (engine.withRows change).2 := by
  cases operation <;> cases rows <;> rfl

theorem rowsChange_of_rows (coherent : engine.registry.Coherent) {operation : Operation R}
    {change : Bool × Registry R}
    (rows : engine.rowsResult? operation = some change) : engine.registry.RowsChange change := by
  cases operation with
  | setToggle classId toggle enabled =>
    cases rows
    exact Registry.rowsChange_setToggle coherent classId toggle enabled
  | flipToggle classId toggle =>
    cases rows
    exact Registry.rowsChange_flipToggle coherent classId toggle
  | focusMethod methodId =>
    cases rows
    exact Registry.rowsChange_focusMethod coherent methodId
  | restoreMethods classId =>
    cases rows
    exact Registry.rowsChange_restoreMethods engine.registry classId
  | _ => cases rows

/-! ## A small diagram -/

/-- A new diagram with the standard settings and without a font. -/
def standardStart (viewport : Vec R) : Engine R :=
  create .unknown (fun _ => .error .missing) .standard viewport

def sampleStart : Engine Float32 :=
  standardStart ⟨800, 600⟩

/-- A class and a method. -/
def sampleNodes : List Node :=
  [⟨"class", ["Class"], []⟩, ⟨"method", ["Method"], []⟩]

/-- The class claims the method. -/
def sampleClaims : List Relationship :=
  [⟨"claim", "HAS_METHOD", "class", "method", []⟩]

end Engine

end CodeAtlas
