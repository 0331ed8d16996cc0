import CodeAtlas.Config.Read
import CodeAtlas.Proofs.Engine.Reset
import CodeAtlas.Proofs.Json.Yields
import CodeAtlas.Proofs.Number.Single

/-!
# Turning the wheel

The wheel moves the visible height between two limits of the settings.  No height
lies between limits that are out of order, and then the first turn of the wheel
fails.  A text may give the limits in any order.  They are always numbers, so the
wheel fails in no other way.
-/

namespace CodeAtlas

variable {R : Type} [Scalar R] {engine : Engine R}

/-! ## Limits out of order -/

/-- Turning the wheel so far asks for a height between limits that are out of
order. -/
structure CameraSettings.Jams (settings : CameraSettings R) (notches : R) : Prop where
  unordered : ¬ settings.minExtent ≤ settings.maxExtent
  zooming : ¬ settings.zoomStep ≤ 0.0
  turned : (notches == 0.0) = false

namespace Engine

theorem wheel_eq_error_iff {screen : Vec R} {notches : R} {fault : Fault} :
    engine.wheel screen notches = .error fault ↔
      fault = .unorderedLimits ∧ engine.config.camera.Jams notches := by
  unfold wheel Camera.zoom
  dsimp only
  split
  · next still =>
      constructor
      · intro failed
        cases failed
      · rintro ⟨_, jams⟩
        simp [jams.turned, jams.zooming] at still
  · next moving =>
      simp only [Bool.or_eq_true, decide_eq_true_eq, not_or, Bool.not_eq_true] at moving
      split
      · next unclamped =>
          have unordered : ¬ engine.config.camera.minExtent ≤ engine.config.camera.maxExtent := by
            intro ordered
            simp [Scalar.clamp?, ordered] at unclamped
          constructor
          · intro failed
            cases failed
            exact ⟨rfl, unordered, moving.2, moving.1⟩
          · rintro ⟨rfl, _⟩
            rfl
      · next height clamped =>
          constructor
          · intro failed
            split at failed <;> cases failed
          · rintro ⟨_, jams⟩
            simp [Scalar.clamp?, jams.unordered] at clamped

theorem apply_eq_error_iff {operation : Operation R} {fault : Fault} :
    engine.apply operation = .error fault ↔ fault = .unorderedLimits ∧
      ∃ screen notches, operation = .wheel screen notches ∧
        engine.config.camera.Jams notches := by
  cases operation with
  | wheel screen notches =>
    have failure : engine.apply (.wheel screen notches) = .error fault ↔
        engine.wheel screen notches = .error fault := by
      rw [apply]
      cases engine.wheel screen notches <;> simp [Except.map]
    rw [failure, wheel_eq_error_iff]
    simp
  | _ => simp [apply]

/-- An operation fails at limits that are out of order, or with something that is
too large. -/
theorem perform_eq_error_iff {operation : Operation R} {fault : Fault} :
    engine.perform operation = .error fault ↔
      (fault = .unorderedLimits ∧ ∃ screen notches, operation = .wheel screen notches ∧
        engine.config.camera.Jams notches) ∨
      fault = .oversized ∧ ∃ next, engine.apply operation = .ok next ∧ next.fits = false := by
  rw [← apply_eq_error_iff, perform]
  cases engine.apply operation with
  | error first => simp [bind, Except.bind]
  | ok next =>
    change next.checked = .error fault ↔ _
    cases fits : next.fits <;> simp [checked, fits, @eq_comm _ fault]

/-- A turn of the wheel that changes the view scales it to a height that was moved
between the limits. -/
theorem exists_clamp_of_wheel {next : Engine R} {screen : Vec R} {notches : R}
    (turned : engine.wheel screen notches = .ok (true, next)) :
    ∃ height,
      Scalar.clamp? (engine.camera.height / Scalar.pow engine.config.camera.zoomStep notches)
        engine.config.camera.minExtent engine.config.camera.maxExtent = some height ∧
      next = { engine with
        camera := engine.camera.scaledAround (engine.camera.screenToWorld screen)
          (height / engine.camera.height) } := by
  rcases exists_zoom_of_wheel turned with ⟨camera, zoomed, rfl⟩
  unfold Camera.zoom at zoomed
  split at zoomed
  · cases zoomed
  · split at zoomed
    · cases zoomed
    · next height clamped =>
        split at zoomed
        · cases zoomed
        · cases zoomed
          exact ⟨height, clamped, rfl⟩

end Engine

/-! ## Settings from a text -/

/-- What zooming compares are numbers. -/
structure CameraSettings.Definite (settings : CameraSettings Float32) : Prop where
  zoomStep : settings.zoomStep.isNaN = false
  minExtent : settings.minExtent.isNaN = false
  maxExtent : settings.maxExtent.isNaN = false

theorem CameraSettings.yields_schema : schema.decoder.Yields Definite := by
  have single := Json.Decoder.yields_single
  have start : schema.start.Definite := by constructor <;> decide +kernel
  refine Json.Schema.yields_decoder start ?_
  simp only [schema, List.forall_mem_cons]
  refine ⟨?_, ?_, ?_, ?_, ?_, by simp⟩
  · exact single.defaulted fun _ _ step definite => { definite with zoomStep := step }
  · exact single.defaulted fun _ _ low definite => { definite with minExtent := low }
  · exact single.defaulted fun _ _ high definite => { definite with maxExtent := high }
  · exact single.defaulted fun _ _ _ definite => { definite with }
  · exact single.defaulted fun _ _ _ definite => { definite with }

/-- Limits from a text are numbers, whatever the text says. -/
theorem EngineConfig.definite_of_ofText {source : String} {config : EngineConfig Float32}
    (read : ofText source = .ok config) : config.camera.Definite := by
  have start : schema.start.camera.Definite := by constructor <;> decide +kernel
  have yields : schema.decoder.Yields fun all => all.camera.Definite := by
    refine Json.Schema.yields_decoder start ?_
    simp only [schema, List.forall_mem_cons]
    refine ⟨?_, ?_, ?_, ?_, ?_, ?_, ?_, by simp⟩
    case refine_4 => exact CameraSettings.yields_schema.defaulted fun _ _ camera _ => camera
    all_goals exact (Json.Decoder.yields_true _).defaulted fun _ _ _ definite => definite
  exact yields.run read

theorem CameraSettings.Definite.jams_iff {settings : CameraSettings Float32}
    (definite : settings.Definite) {notches : Float32} :
    settings.Jams notches ↔ (settings.maxExtent < settings.minExtent ∧ 0.0 < settings.zoomStep) ∧
      (notches == 0.0) = false := by
  have zero : (0.0 : Float32).isNaN = false := by decide +kernel
  have crossed := Single.not_le_iff_lt definite.minExtent definite.maxExtent
  have positive := Single.not_le_iff_lt definite.zoomStep zero
  constructor
  · intro jams
    exact ⟨⟨crossed.mp jams.unordered, positive.mp jams.zooming⟩, jams.turned⟩
  · rintro ⟨⟨unordered, zooming⟩, turned⟩
    exact ⟨crossed.mpr unordered, positive.mpr zooming, turned⟩

/-- For settings from a text, whatever it says, the limits of the zoom are numbers.
Operations on a new diagram with such settings fail at the first one that turns
the wheel while the upper limit is below the lower one and the zoom step is
positive, or that makes something too large to be held.  On every diagram that a
run can reach, turning the wheel fails under the same condition, and a turn that
changes the view scales it to a height that was moved between the limits. -/
theorem Engine.wheel_fails_iff_limits_crossed {source : String} {config : EngineConfig Float32}
    (read : EngineConfig.ofText source = .ok config) (text : TextMetrics Float32)
    (layouter : Layouter Float32) (viewport : Vec Float32)
    (operations : List (Operation Float32)) :
    let start := withLayouter config text layouter viewport
    let limits := config.camera
    let crossed := limits.maxExtent < limits.minExtent ∧ 0.0 < limits.zoomStep
    (limits.minExtent.isNaN = false ∧ limits.maxExtent.isNaN = false) ∧
    (∀ fault, start.execute operations = .error fault ↔
      ∃ before operation after engine, operations = before ++ operation :: after ∧
        start.execute before = .ok engine ∧
        ((fault = .unorderedLimits ∧ crossed ∧ ∃ screen notches,
            operation = .wheel screen notches ∧ (notches == 0.0) = false) ∨
          fault = .oversized ∧ ∃ next, engine.apply operation = .ok next ∧ next.fits = false)) ∧
    ∀ engine, start.run operations = .ok engine → ∀ screen notches,
      (∀ fault, engine.wheel screen notches = .error fault ↔
        fault = .unorderedLimits ∧ crossed ∧ (notches == 0.0) = false) ∧
      ∀ next, engine.wheel screen notches = .ok (true, next) → ∃ height,
        Scalar.clamp? (engine.camera.height / Scalar.pow limits.zoomStep notches)
          limits.minExtent limits.maxExtent = some height ∧
        (height.isNaN = false → limits.minExtent ≤ height ∧ height ≤ limits.maxExtent) ∧
        next = { engine with
          camera := engine.camera.scaledAround (engine.camera.screenToWorld screen)
            (height / engine.camera.height) } := by
  intro start limits crossed
  have definite : limits.Definite := EngineConfig.definite_of_ofText read
  have small : start.fits = true := fits_withLayouter config text layouter viewport
  have same {done : List (Operation Float32)} {engine : Engine Float32}
      (ran : start.run done = .ok engine) : engine.config = config :=
    congrArg Prod.fst (made_of_run ran).1
  refine ⟨⟨definite.minExtent, definite.maxExtent⟩, ?_, ?_⟩
  · intro fault
    refine foldlM_eq_error_iff.trans ?_
    refine exists_congr fun before => exists_congr fun operation => exists_congr fun after =>
      exists_congr fun engine => and_congr_right fun _ => and_congr_right fun executed => ?_
    rw [perform_eq_error_iff, same (run_of_execute small executed).1]
    refine or_congr_left (and_congr_right fun _ => ?_)
    constructor
    · rintro ⟨screen, notches, isWheel, jams⟩
      have ⟨isCrossed, turned⟩ := definite.jams_iff.mp jams
      exact ⟨isCrossed, screen, notches, isWheel, turned⟩
    · rintro ⟨isCrossed, screen, notches, isWheel, turned⟩
      exact ⟨screen, notches, isWheel, definite.jams_iff.mpr ⟨isCrossed, turned⟩⟩
  · intro engine ran screen notches
    constructor
    · intro fault
      rw [wheel_eq_error_iff, same ran, definite.jams_iff]
    · intro next turned
      rcases exists_clamp_of_wheel turned with ⟨height, clamped, rfl⟩
      rw [same ran] at clamped
      exact ⟨height, clamped, Single.le_of_clamp?_eq_some clamped, rfl⟩

/-- Limits the wrong way round are accepted, and the first turn of the wheel fails
on them. -/
theorem Engine.wheel_fails_on_swapped_limits :
    ∃ config, EngineConfig.ofText
        "\x7b\"camera\": \x7b\"min_extent\": 100, \"max_extent\": 40\x7d\x7d" = .ok config ∧
      (create .unknown (fun _ => .error .missing) config ⟨1200, 800⟩).execute
        [.setPerspective .architecture, .wheel ⟨600, 400⟩ 1] = .error .unorderedLimits := by
  let source := "\x7b\"camera\": \x7b\"min_extent\": 100, \"max_extent\": 40\x7d\x7d"
  have crossed : (EngineConfig.ofText source).toOption.any (fun config =>
      decide (config.camera.maxExtent < config.camera.minExtent) &&
        decide (0.0 < config.camera.zoomStep)) = true := by
    decide +kernel
  cases read : EngineConfig.ofText source with
  | error error => simp [read, Except.toOption] at crossed
  | ok config =>
    simp only [read, Except.toOption, Option.any_some, Bool.and_eq_true, decide_eq_true_eq]
      at crossed
    have fails := (wheel_fails_iff_limits_crossed read
      (.load .unknown (fun _ => .error .missing) config.text.fontPath config.text.fontSize)
      (TreeLayouter.ofSettings config.layout).execute ⟨1200, 800⟩
      [.setPerspective .architecture, .wheel ⟨600, 400⟩ 1]).2.1 .unorderedLimits
    exact ⟨config, rfl, fails.mpr ⟨[.setPerspective .architecture], _, [], _, rfl, rfl,
      Or.inl ⟨rfl, crossed, ⟨600, 400⟩, 1, rfl, by decide +kernel⟩⟩⟩

end CodeAtlas
