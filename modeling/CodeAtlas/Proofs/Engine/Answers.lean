import CodeAtlas.Proofs.Engine.Repeat

/-!
# What an answer tells

Operations answer whether they changed anything, and each of them finds out in
its own way, some only after they have begun to work.  Whoever is told that
nothing changed can rely on it: the diagram is the same in every part, down to
the counter of the pool and the queue of events.
-/

namespace CodeAtlas

variable {R : Type} [Scalar R] {engine next : Engine R}

namespace Camera

theorem resize_eq_of_false {camera : Camera R} {width height : R}
    (unchanged : (camera.resize width height).1 = false) :
    (camera.resize width height).2 = camera := by
  unfold resize at unchanged ⊢
  split at unchanged
  · next refused => rw [if_pos refused]
  · cases unchanged

theorem zoom_eq_of_false {camera next : Camera R} {screen : Vec R}
    {notches step minExtent maxExtent : R}
    (zoomed : camera.zoom screen notches step minExtent maxExtent = .ok (false, next)) :
    next = camera := by
  unfold zoom at zoomed
  split at zoomed
  · cases zoomed
    rfl
  · split at zoomed
    · cases zoomed
    · split at zoomed
      · cases zoomed
        rfl
      · cases zoomed

end Camera

namespace Engine

/-- Either nothing happens or the answer is true. -/
theorem RedrawsMap.eq_of_false {result : Bool × Engine R}
    (redraws : engine.RedrawsMap result.1 result.2) (unchanged : result.1 = false) :
    result.2 = engine := by
  rcases redraws with ⟨_, same⟩ | ⟨changed, _⟩
  · exact same
  · rw [unchanged] at changed
    cases changed

/-- The operations on toggles and focus go by the registry's answer. -/
theorem withRows_eq_of_false (coherent : engine.registry.Coherent) (operation : Operation R)
    {change : Bool × Registry R} (rows : engine.rowsResult? operation = some change)
    (unchanged : (engine.withRows change).1 = false) : (engine.withRows change).2 = engine :=
  (redrawsMap_withRows (rowsChange_of_rows coherent rows)).eq_of_false unchanged

theorem fitToContent_eq_of_false
    (unchanged : engine.fitToContent.1 = false) : engine.fitToContent.2 = engine := by
  unfold fitToContent at unchanged ⊢
  cases bounds : engine.contentBounds with
  | none => rfl
  | some rect =>
    rw [bounds] at unchanged
    cases unchanged

theorem wheel_eq_of_false {screen : Vec R} {notches : R}
    (turned : engine.wheel screen notches = .ok (false, next)) : next = engine := by
  obtain ⟨camera, zoomed, rfl⟩ := exists_zoom_of_wheel turned
  rw [Camera.zoom_eq_of_false zoomed]

/-- After every run of a new diagram, an operation that answers that nothing has
changed leaves the whole diagram as it was. -/
theorem unchanged_of_answer (config : EngineConfig R) (text : TextMetrics R)
    (layouter : Layouter R) (viewport : Vec R) (operations : List (Operation R))
    {engine : Engine R}
    (ran : (withLayouter config text layouter viewport).run operations = .ok engine) :
    (∀ id, (engine.deleteNode id).1 = false → (engine.deleteNode id).2 = engine) ∧
    (∀ classId, (engine.focusOnClass classId).1 = false →
      (engine.focusOnClass classId).2 = engine) ∧
    (∀ classId toggle enabled, (engine.setToggle classId toggle enabled).1 = false →
      (engine.setToggle classId toggle enabled).2 = engine) ∧
    (∀ classId toggle, (engine.flipToggle classId toggle).1 = false →
      (engine.flipToggle classId toggle).2 = engine) ∧
    (∀ methodId, (engine.focusMethod methodId).1 = false →
      (engine.focusMethod methodId).2 = engine) ∧
    (∀ classId, (engine.restoreMethods classId).1 = false →
      (engine.restoreMethods classId).2 = engine) ∧
    (engine.exitSequence.1 = false → engine.exitSequence.2 = engine) ∧
    (∀ perspective, (engine.setPerspective perspective).1 = false →
      (engine.setPerspective perspective).2 = engine) ∧
    (engine.fitToContent.1 = false → engine.fitToContent.2 = engine) ∧
    (∀ width height, (engine.resize width height).1 = false →
      (engine.resize width height).2 = engine) ∧
    (∀ screen notches next, engine.wheel screen notches = .ok (false, next) → next = engine) ∧
    ∀ nodes relationships, (engine.addData nodes relationships).1.changed = false →
      (engine.addData nodes relationships).2 = engine := by
  have coherent := ((sound_withLayouter config text layouter viewport).run ran).coherent
  refine ⟨?_, ?_, ?_, ?_, ?_, ?_, ?_, ?_, ?_, ?_, ?_, ?_⟩
  · exact fun id unchanged => (redrawsMap_deleteNode engine id).eq_of_false unchanged
  · exact fun classId unchanged => (redrawsMap_focusOnClass engine classId).eq_of_false unchanged
  · exact fun classId toggle enabled =>
      withRows_eq_of_false coherent (.setToggle classId toggle enabled) rfl
  · exact fun classId toggle => withRows_eq_of_false coherent (.flipToggle classId toggle) rfl
  · exact fun methodId => withRows_eq_of_false coherent (.focusMethod methodId) rfl
  · exact fun classId => withRows_eq_of_false coherent (.restoreMethods classId) rfl
  · exact fun unchanged => (redrawsMap_exitSequence engine).eq_of_false unchanged
  · exact fun perspective unchanged =>
      (redrawsMap_setPerspective engine perspective).eq_of_false unchanged
  · exact fitToContent_eq_of_false
  · intro width height unchanged
    have same : (engine.camera.resize width height).2 = engine.camera :=
      Camera.resize_eq_of_false unchanged
    change { engine with camera := (engine.camera.resize width height).2 } = engine
    rw [same]
  · exact fun screen notches next => wheel_eq_of_false
  · intro nodes relationships unchanged
    rcases redrawsMap_addData coherent nodes relationships with ⟨_, same⟩ | ⟨changed, _⟩
    · exact same
    · rw [unchanged] at changed
      cases changed

/-- While calls are shown, a batch that is on the map already goes unnoticed. -/
theorem unchanged_while_calls_shown :
    ∃ engine, sampleStart.run [.setData sampleNodes sampleClaims, .showSequence "method"] =
        .ok engine ∧ engine.isSequence = true ∧
      (engine.addData sampleNodes sampleClaims).1.changed = false ∧
      (engine.addData sampleNodes sampleClaims).2 = engine := by
  obtain ⟨engine, _, ran, shown, bareEq⟩ := showSequence_sample
  have cleared := Registry.coherent_clear sampleStart.leaveSequence.2.registry
  have absorbs : engine.registry.Absorbs sampleNodes sampleClaims :=
    (cleared.absorbs_addData sampleNodes sampleClaims).of_bare_eq
      (bareEq.trans (bare_setData sampleStart sampleNodes sampleClaims))
  have report : (engine.addData sampleNodes sampleClaims).1 =
      (engine.registry.withData sampleNodes sampleClaims).report := by
    unfold addData
    rw [Registry.addData_eq]
    dsimp only
    split <;> rfl
  have unchanged : (engine.addData sampleNodes sampleClaims).1.changed = false := by
    rw [report, absorbs.idle.report]
    rfl
  obtain ⟨_, _, _, _, _, _, _, _, _, _, _, ofAdd⟩ := unchanged_of_answer .standard _ _ _ _ ran
  exact ⟨engine, ran, shown, unchanged, ofAdd _ _ unchanged⟩

end Engine

end CodeAtlas
