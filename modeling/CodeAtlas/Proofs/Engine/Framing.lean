import CodeAtlas.Proofs.Engine.Fit
import CodeAtlas.Proofs.Extent.Calls

/-!
# What a fitted diagram shows

New data and the calls of a method are shown as a whole: the margin around what
is fitted has room for all that is drawn beyond it.  The one exception are the
names of lanes.  Lanes have one width, which is what counts when a call diagram
is fitted, and a long name reaches beyond its lane.
-/

namespace CodeAtlas

variable [Approximations]

/-! ## Standard sizes -/

namespace TextMetrics

theorem plateHeight_standard :
    ((monospace (13.0 : ℚ)).plateHeight : ℚ) ≤ 21 := by
  have line : (monospace (13.0 : ℚ)).lineHeight + 4.0 ≤ ((21 : ℤ) : ℚ) := by
    norm_num [monospace, lineHeight, line?]
  unfold plateHeight
  rw [Exact.max_eq, Exact.one_eq]
  have least : (0 : ℚ) ≤ max (Scalar.ceil ((monospace (13.0 : ℚ)).lineHeight + 4.0)) 1 :=
    le_max_of_le_right zero_le_one
  exact (Exact.toPixels_le least).trans
    (max_le ((Exact.ceil_le line).trans (by norm_num)) (by norm_num))

/-- The plate of a text on a call diagram, by the length of the text. -/
theorem plateWidth_standard {shown : String} (short : shown.length ≤ 32) :
    ((monospace (13.0 : ℚ)).plateWidth shown
      (SequenceView.labelStyle : LabelStyle ℚ).paddingX : ℚ) ≤ 258 := by
  have length : (shown.length : ℚ) ≤ 32 := by exact_mod_cast short
  have wide : (monospace (13.0 : ℚ)).measure shown +
      (SequenceView.labelStyle : LabelStyle ℚ).paddingX * 2 ≤ ((258 : ℤ) : ℚ) := by
    change (Scalar.ofNat shown.length : ℚ) * 13.0 * 0.6 + 4.0 * 2 ≤ _
    rw [Exact.ofNat_eq]
    norm_num
    linarith
  exact plateWidth_le_of_room ((Exact.ceil_le wide).trans (by norm_num)) (by norm_num)

end TextMetrics

theorem NodeMetrics.legible_standard :
    (NodeMetrics.standard : NodeMetrics ℚ).Legible (.monospace 13.0) where
  header := TextMetrics.plateHeight_standard.trans (by norm_num [NodeMetrics.standard])
  row := TextMetrics.plateHeight_standard.trans (by norm_num [NodeMetrics.standard])
  standalone := TextMetrics.plateHeight_standard.trans (by norm_num [NodeMetrics.standard])
  bottomPadding := by norm_num [NodeMetrics.standard]
  minWidth := by norm_num [NodeMetrics.standard]

theorem SequenceSettings.legible_standard :
    (SequenceSettings.standard : SequenceSettings ℚ).Legible (.monospace 13.0) where
  header := TextMetrics.plateHeight_standard.trans (by norm_num [SequenceSettings.standard])
  laneWidth := by norm_num [SequenceSettings.standard]
  rowHeight := by norm_num [SequenceSettings.standard]
  arrowLength := by norm_num [SequenceSettings.standard]
  arrowWidth := by norm_num [SequenceSettings.standard]

/-! ## Whole scenes -/

/-- All points of a part are in sight. -/
def Primitive.ShownBy (primitive : Primitive ℚ) (camera : Camera ℚ) : Prop :=
  ∀ point, primitive.kind.Covers point → camera.bounds.contains point = true

theorem Primitive.StaysIn.shownBy {primitive : Primitive ℚ} {rect : Rect ℚ}
    (stays : primitive.StaysIn rect) {camera : Camera ℚ} (within : rect.Within camera.bounds) :
    primitive.ShownBy camera :=
  fun _ covers => covers.contains (stays.mono within)

/-- The part is the name of a class at the head of its lane. -/
def Primitive.NamesLane (primitive : Primitive ℚ) : Prop :=
  (∃ index classId, primitive.role = .laneHeader index classId) ∧
    ∃ label area, primitive.kind = .label label area

theorem Rect.epsilon_le_height_expand {rect : Rect ℚ} (proper : rect.Proper) {margin : ℚ}
    (wide : 1 ≤ margin) : Scalar.epsilon ≤ (rect.expand margin).height := by
  have high := proper.high
  have small : (Scalar.epsilon : ℚ) ≤ 1 := by norm_num [Scalar.epsilon]
  have height : (rect.expand margin).height = rect.max.y + margin - (rect.min.y - margin) := rfl
  rw [height]
  linarith

/-! ## Call diagrams -/

namespace SequenceView

variable {reg lending : Registry ℚ} {root : NodeId} {settings : SequenceSettings ℚ}
  {interaction : InteractionSettings ℚ} {view : SequenceView ℚ} {around : Rect ℚ} {margin : ℚ}
  {camera : Camera ℚ}

section

variable (built : build reg root settings interaction = some (view, lending))
  (legible : settings.Legible reg.text)
include built legible

theorem bounds_proper (bounds : view.bounds = some around) : around.Proper := by
  rcases exists_lane_of_build built with ⟨lane, mem⟩
  exact (header_proper legible ((drawn_of_build built).1 lane mem)).of_within
    (lane_within bounds mem).1

/-- A camera that shows a call diagram and a margin around it shows all that is
not the name of a lane. -/
theorem shownBy_of_unnamed (bounded : Approximations.Bounded) (bounds : view.bounds = some around)
    (room : settings.arrowLength + settings.arrowWidth / 2 ≤ margin)
    (within : (around.expand margin).Within camera.bounds) :
    ∀ primitive ∈ (Scene.ofSequence view lending.pool).primitives,
      ¬ primitive.NamesLane → primitive.ShownBy camera := by
  intro primitive part unnamed
  rcases staysIn_ofSequence built legible bounded bounds primitive part with
    stays | ⟨lane, _, ⟨index, role⟩, kind⟩
  · exact stays.shownBy (((Rect.Within.refl around).expand room).trans within)
  · exact absurd ⟨⟨index, lane.classId, role⟩, _, _, kind⟩ unnamed

/-- The name of a lane is in sight if it is so from left to right. -/
theorem plate_within (bounds : view.bounds = some around) (nonneg : 0 ≤ margin)
    (within : (around.expand margin).Within camera.bounds) {lane : Lane ℚ}
    (mem : lane ∈ view.lanes) (left : camera.left ≤ (lane.plate reg.text).min.x)
    (right : (lane.plate reg.text).max.x ≤ camera.right) :
    (lane.plate reg.text).Within camera.bounds := by
  rcases plate_vertical legible ((drawn_of_build built).1 lane mem) with ⟨top, bottom⟩
  have header : lane.header.Within camera.bounds :=
    (lane_within bounds mem).1.trans ((around.within_expand nonneg).trans within)
  exact ⟨left, right, header.top.trans top, bottom.trans header.bottom⟩

/-- Such a camera shows the whole diagram exactly if no name sticks out on the
left or on the right. -/
theorem shows_iff_plates (bounded : Approximations.Bounded) (bounds : view.bounds = some around)
    (room : settings.arrowLength + settings.arrowWidth / 2 ≤ margin)
    (within : (around.expand margin).Within camera.bounds) {rest : List Slot}
    (holds : lending.pool.Holds (rest ++ view.slots)) :
    (∀ primitive ∈ (Scene.ofSequence view lending.pool).primitives, primitive.ShownBy camera) ↔
      ∀ lane ∈ view.lanes, camera.left ≤ (lane.plate reg.text).min.x ∧
        (lane.plate reg.text).max.x ≤ camera.right := by
  constructor
  · intro all lane mem
    rcases exists_plate built holds mem with ⟨primitive, part, kind⟩
    have proper := lane.plate_proper reg.text
    have shows := all primitive part
    rw [Primitive.ShownBy, kind] at shows
    exact ⟨(Rect.contains_iff.mp (shows _ proper.contains_min)).1,
      (Rect.contains_iff.mp (shows _ proper.contains_max)).2.1⟩
  · intro narrow primitive part
    rcases staysIn_ofSequence built legible bounded bounds primitive part with
      stays | ⟨lane, mem, _, kind⟩
    · exact stays.shownBy (((Rect.Within.refl around).expand room).trans within)
    · have nonneg : 0 ≤ margin := by
        have length := legible.arrowLength
        have width := legible.arrowWidth
        linarith
      rcases narrow lane mem with ⟨left, right⟩
      have plate := plate_within built legible bounds nonneg within mem left right
      intro point covers
      rw [kind] at covers
      exact plate.contains covers

end

/-- No name sticks out that is not wider than its lane and both margins. -/
theorem plates_inside_of_short (built : build reg root settings interaction = some (view, lending))
    (bounds : view.bounds = some around) (within : (around.expand margin).Within camera.bounds)
    (short : ∀ lane ∈ view.lanes,
      (reg.text.plateWidth lane.name (labelStyle : LabelStyle ℚ).paddingX : ℚ) ≤
        settings.laneWidth + 2 * margin) :
    ∀ lane ∈ view.lanes, camera.left ≤ (lane.plate reg.text).min.x ∧
      (lane.plate reg.text).max.x ≤ camera.right := by
  intro lane mem
  rcases plate_horizontal ((drawn_of_build built).1 lane mem) (short lane mem) with ⟨left, right⟩
  have header := ((lane_within bounds mem).1.expand (le_refl margin)).trans within
  exact ⟨header.left.trans left, right.trans header.right⟩

end SequenceView

namespace Engine

variable {config : EngineConfig ℚ} {text : TextMetrics ℚ} {layouter : Layouter ℚ}
  {viewport : Vec ℚ} {operations : List (Operation ℚ)} {engine : Engine ℚ}

/-- All points of all parts are in sight. -/
def ShowsAll (engine : Engine ℚ) : Prop :=
  ∀ primitive ∈ engine.scene.primitives, primitive.ShownBy engine.camera

/-! ## Maps -/

/-- Fitting shows all of a map, if the margin has room for labels, loops and
arrowheads. -/
theorem showsAll_fitToContent (graph : engine.mode = .graph)
    (drawn : engine.scene = engine.currentScene)
    (viewport : 0 < engine.camera.viewport.x ∧ 0 < engine.camera.viewport.y)
    (reachable : engine.registry.Reachable engine.sequence?)
    (legible : engine.registry.metrics.Legible engine.registry.text)
    (bounded : Approximations.Bounded)
    (laid : engine.registry.Laid layouter) (margin : 38 ≤ engine.config.camera.fitMargin) :
    engine.fitToContent.2.ShowsAll := by
  have scene : engine.fitToContent.2.scene = .ofRegistry engine.registry := by
    rw [(sameView_fitToContent engine).scene, drawn, currentScene, graph]
  have content : engine.contentBounds = engine.registry.bounds := by
    rw [contentBounds, graph]
  intro primitive part
  rw [scene] at part
  cases bounds : engine.registry.bounds with
  | none =>
    rw [reachable.coherent.scene_eq_nil bounds] at part
    cases part
  | some around =>
    have proper := reachable.bounds_proper legible bounds
    have frames := frames_fitToContent viewport (content.trans bounds)
      (Rect.epsilon_le_height_expand proper (by linarith))
    have near : (around.expand 38).Within (around.expand engine.config.camera.fitMargin) :=
      (Rect.Within.refl around).expand margin
    exact (reachable.staysIn_ofRegistry legible bounded laid bounds primitive part).shownBy
      (near.trans frames.within)

/-- New data are shown as a whole. -/
theorem showsAll_setData
    (ran : (withLayouter config text layouter viewport).run operations = .ok engine)
    (places : PlacesAll layouter) (legible : config.node.Legible text)
    (bounded : Approximations.Bounded) (margin : 38 ≤ config.camera.fitMargin)
    (nodes : List Node) (links : List Relationship) :
    (engine.setData nodes links).2.ShowsAll := by
  have ranNext := run_setData ran nodes links
  rcases made_of_run ranNext with ⟨setup, registrySetup⟩
  have reachable := reachable_of_run _ _ _ _ _ ranNext
  have start : (withLayouter config text layouter viewport).Tracked :=
    Registry.Reachable.create _ _ _
  have laid := laid_run start places (Registry.laid_of_empty rfl rfl rfl) ranNext
  have graph := (upToDate_setData engine nodes links).2
  -- The diagram before it is fitted: all but its camera is there.
  obtain ⟨before, made⟩ : ∃ before : Engine ℚ, before = { engine.leaveSequence.2 with
      registry := (engine.leaveSequence.2.registry.setData nodes links).2
      interaction := {} }.relayout := ⟨_, rfl⟩
  have fitted : (engine.setData nodes links).2 = before.fitToContent.2 := by
    rw [made]
    rfl
  have drawn : before.UpToDate := by
    rw [made]
    exact upToDate_relayout _
  have camera : before.camera = engine.camera := by
    rw [made, camera_relayout]
    exact camera_leaveSequence engine
  have same := sameMap_fitToContent before
  rw [fitted] at setup registrySetup reachable laid graph ⊢
  rw [same.setup] at setup
  rw [same.registry] at registrySetup reachable laid
  rw [sequence?_of_mode same.mode] at reachable
  have sameConfig : before.config = config := congrArg Prod.fst setup
  have sameMetrics : before.registry.metrics = config.node :=
    congrArg (fun setup => setup.2.1) registrySetup
  have sameText : before.registry.text = text := congrArg Prod.fst registrySetup
  apply showsAll_fitToContent (same.mode.symm.trans graph) drawn.scene _ reachable _ bounded laid
  · rw [sameConfig]
    exact margin
  · rw [camera]
    exact viewport_pos_of_run ran
  · rw [sameMetrics, sameText]
    exact legible

/-! ## Calls -/

theorem run_showSequence {start next : Engine ℚ} (ran : start.run operations = .ok engine)
    {root : NodeId} (shown : engine.showSequence root = (true, next)) :
    start.run (operations ++ [.showSequence root]) = .ok next :=
  run_concat.mpr ⟨engine, ran, by rw [apply, shown]⟩

/-- The calls of a method are fitted as soon as they are shown. -/
theorem exists_build_of_showSequence {next : Engine ℚ} {root : NodeId}
    (shown : engine.showSequence root = (true, next)) :
    ∃ view around,
      SequenceView.build engine.leaveSequence.2.registry root engine.config.sequence
        engine.config.interaction = some (view, next.registry) ∧
      view.bounds = some around ∧ next.mode = .sequence view ∧
      next.scene = .ofSequence view next.registry.pool ∧
      next.camera = engine.camera.fit around engine.config.camera.fitMargin := by
  have config : engine.leaveSequence.2.config = engine.config :=
    congrArg Prod.fst (setup_leaveSequence engine)
  unfold showSequence at shown
  dsimp only at shown
  split at shown
  · cases shown
  · next view lending built =>
      rcases SequenceView.exists_bounds_of_build built with ⟨around, bounds⟩
      obtain ⟨drawn, made⟩ : ∃ drawn : Engine ℚ, drawn = { engine.leaveSequence.2 with
          registry := lending, mode := .sequence view, interaction := {} }.rebuildScene := ⟨_, rfl⟩
      rw [← made] at shown
      obtain rfl := congrArg Prod.snd shown
      have fitted := sameView_fitToContent drawn
      have camera : drawn.fitToContent.2.camera =
          engine.camera.fit around engine.config.camera.fitMargin := by
        rw [camera_fitToContent (by rw [made]; exact bounds), made]
        change engine.leaveSequence.2.camera.fit _
          engine.leaveSequence.2.config.camera.fitMargin = _
        rw [camera_leaveSequence, config]
      have reg : drawn.fitToContent.2.registry = lending := by
        rw [fitted.registry, made]
        rfl
      refine ⟨view, around, ?_, bounds, ?_, ?_, camera⟩
      · change _ = some (view, drawn.fitToContent.2.registry)
        rw [reg, ← config]
        exact built
      · change drawn.fitToContent.2.mode = _
        rw [fitted.mode, made]
        rfl
      · change drawn.fitToContent.2.scene = .ofSequence view drawn.fitToContent.2.registry.pool
        rw [fitted.scene, reg, made]
        rfl

/-- The calls of a method are shown as a whole, but for the names of lanes; those
are in sight if there is room for them on both sides. -/
theorem shows_of_showSequence
    (ran : (withLayouter config text layouter viewport).run operations = .ok engine)
    {root : NodeId} {next : Engine ℚ} (shown : engine.showSequence root = (true, next))
    (legible : config.sequence.Legible text) (bounded : Approximations.Bounded)
    (room : config.sequence.arrowLength + config.sequence.arrowWidth / 2 ≤ config.camera.fitMargin)
    (least : 1 ≤ config.camera.fitMargin) :
    ∃ view, next.mode = .sequence view ∧
      (∀ primitive ∈ next.scene.primitives, ¬ primitive.NamesLane → primitive.ShownBy next.camera) ∧
      (next.ShowsAll ↔ ∀ lane ∈ view.lanes,
        next.camera.left ≤ (lane.plate text).min.x ∧ (lane.plate text).max.x ≤ next.camera.right) ∧
      ((∀ lane ∈ view.lanes,
          (text.plateWidth lane.name (SequenceView.labelStyle : LabelStyle ℚ).paddingX : ℚ) ≤
            config.sequence.laneWidth + 2 * config.camera.fitMargin) →
        next.ShowsAll) := by
  have positive := viewport_pos_of_run ran
  have ranNext := run_showSequence ran shown
  have sameConfig : engine.config = config := congrArg Prod.fst (made_of_run ran).1
  rcases exists_build_of_showSequence shown with ⟨view, around, built, bounds, mode, scene, camera⟩
  have sameText : engine.leaveSequence.2.registry.text = text := by
    rcases Registry.eq_of_build built with ⟨pool, lending, _⟩
    have nextText : next.registry.text = text := congrArg Prod.fst (made_of_run ranNext).2
    rw [lending] at nextText
    exact nextText
  have holds := (reachable_of_run _ _ _ _ _ ranNext).balanced
  rw [Registry.Balanced, sequence?, mode] at holds
  rw [sameConfig] at built camera
  rw [← sameText] at legible ⊢
  have proper := SequenceView.bounds_proper built legible bounds
  have within : (around.expand config.camera.fitMargin).Within next.camera.bounds := by
    rw [camera]
    exact (Camera.frames_fit positive.1 positive.2
      (Rect.epsilon_le_height_expand proper least)).within
  have whole := SequenceView.shows_iff_plates built legible bounded bounds room within holds
  have unnamed := SequenceView.shownBy_of_unnamed built legible bounded bounds room within
  rw [← scene] at whole unnamed
  refine ⟨view, mode, unnamed, whole, ?_⟩
  intro short
  exact whole.mpr (SequenceView.plates_inside_of_short built bounds within short)

/-- With the standard settings and any layout that places all boxes, as the tree
layout does, new data are shown as a whole, whatever they are and whatever was
done before.  So are the calls of a method, but for the names of classes at the
heads of lanes: everything else is in sight, and so are the names unless one
sticks out of the window on the left or on the right, which takes more than 32
characters. -/
theorem fitting_crops_lane_names_only (bounded : Approximations.Bounded)
    {layouter : Layouter ℚ} (places : PlacesAll layouter) (viewport : Vec ℚ)
    (operations : List (Operation ℚ)) {engine : Engine ℚ}
    (ran : (withLayouter .standard
      (.monospace (EngineConfig.standard : EngineConfig ℚ).text.fontSize) layouter
      viewport).run operations = .ok engine) :
    (∀ nodes relationships, (engine.setData nodes relationships).2.ShowsAll) ∧
    ∀ root next, engine.showSequence root = (true, next) →
      ∃ view, next.mode = .sequence view ∧
        (∀ primitive ∈ next.scene.primitives, ¬ primitive.NamesLane →
          primitive.ShownBy next.camera) ∧
        (next.ShowsAll ↔ ∀ lane ∈ view.lanes,
          next.camera.left ≤ (lane.plate next.registry.text).min.x ∧
            (lane.plate next.registry.text).max.x ≤ next.camera.right) ∧
        ((∀ lane ∈ view.lanes, lane.name.length ≤ 32) → next.ShowsAll) := by
  constructor
  · exact showsAll_setData ran places NodeMetrics.legible_standard bounded
      (by norm_num [EngineConfig.standard, CameraSettings.standard])
  · intro root next shown
    rcases shows_of_showSequence ran shown
      SequenceSettings.legible_standard bounded
      (by norm_num [EngineConfig.standard, CameraSettings.standard, SequenceSettings.standard])
      (by norm_num [EngineConfig.standard, CameraSettings.standard]) with
      ⟨view, mode, unnamed, whole, wide⟩
    have text : next.registry.text =
        .monospace (EngineConfig.standard : EngineConfig ℚ).text.fontSize :=
      congrArg Prod.fst (made_of_run (run_showSequence ran shown)).2
    refine ⟨view, mode, unnamed, ?_, ?_⟩
    · rw [text]
      exact whole
    · intro short
      apply wide
      intro lane mem
      exact (TextMetrics.plateWidth_standard (short lane mem)).trans
        (by norm_num [EngineConfig.standard, CameraSettings.standard, SequenceSettings.standard])

/-! ## A name that is cropped -/

/-- Puts all boxes at one place. -/
def stacked : Layouter ℚ :=
  fun nodes _ => nodes.map fun node => (node.id, ⟨0, 0⟩)

omit [Approximations] in
theorem placesAll_stacked : PlacesAll stacked := by
  intro nodes edges node mem
  rw [Positions.get?, List.lookup_isSome_iff]
  exact ⟨(node.id, ⟨0, 0⟩), List.mem_reverse.mpr (List.mem_map_of_mem mem), by simp⟩

/-- A diagram without nodes in a window of three by two. -/
def stackStart : Engine ℚ :=
  withLayouter .standard (.monospace (EngineConfig.standard : EngineConfig ℚ).text.fontSize)
    stacked ⟨1200, 800⟩

/-- A class with a name of fifty characters, and then its method. -/
def longNamed : List (Operation ℚ) :=
  [.setData [⟨"class", ["Class"],
      [("name", .string "ConfigurableApplicationContextFactoryBeanRegistrar")]⟩] [],
    .addData [⟨"method", ["Method"], []⟩] sampleClaims]

omit [Approximations] in
/-- The calls of a method that calls nothing are one lane.  Its name needs 398 of
the 260 units that are in sight. -/
theorem fitting_crops_long_name :
    letI : Approximations := .clamped
    Approximations.Bounded ∧ PlacesAll stacked ∧
    ∃ engine next, stackStart.run longNamed = .ok engine ∧
      engine.showSequence "method" = (true, next) ∧
      (∀ nodes relationships, (engine.setData nodes relationships).2.ShowsAll) ∧
      (∀ primitive ∈ next.scene.primitives, ¬ primitive.NamesLane →
        primitive.ShownBy next.camera) ∧
      ¬ next.ShowsAll := by
  let _ : Approximations := .clamped
  have bounded := Approximations.bounded_clamped
  obtain ⟨engine, ran⟩ : ∃ engine, stackStart.run longNamed = .ok engine := ⟨_, rfl⟩
  have made := (Except.ok.inj ran).symm
  obtain ⟨next, shown⟩ : ∃ next, engine.showSequence "method" = (true, next) := by
    rw [made]
    exact ⟨_, Prod.ext (by decide +kernel) rfl⟩
  rcases fitting_crops_lane_names_only bounded placesAll_stacked _ _ ran with ⟨maps, calls⟩
  rcases calls "method" next shown with ⟨view, mode, unnamed, whole, _⟩
  refine ⟨bounded, placesAll_stacked, engine, next, ran, shown, maps, unnamed, ?_⟩
  rcases exists_build_of_showSequence shown with ⟨_, around, built, bounds, sameMode, _, camera⟩
  obtain rfl := ViewMode.sequence.inj (mode.symm.trans sameMode)
  obtain ⟨method, found, owner⟩ : ∃ method,
      engine.leaveSequence.2.registry.methods.get? "method" = some method ∧
        method.classId = "class" := by
    rw [made]
    exact Option.map_eq_some_iff.mp (by decide +kernel)
  have silent : engine.leaveSequence.2.registry.callTargets "method" = [] := by
    rw [made]
    decide +kernel
  rw [SequenceView.build_of_silent found silent, owner, Option.some.injEq, Prod.mk.injEq] at built
  rcases built with ⟨rfl, lending⟩
  have right : next.camera.right = 220 := by
    have fitted := congrArg (Option.map fun around =>
      (engine.camera.fit around engine.config.camera.fitMargin).right) bounds
    rw [Option.map_some, ← camera] at fitted
    refine (Option.some.inj (Eq.trans ?_ fitted)).symm
    rw [made]
    decide +kernel
  rw [whole]
  intro narrow
  have reach := fun lane mem => (narrow lane mem).2
  revert reach
  rw [right, ← lending, made]
  decide +kernel

end Engine

end CodeAtlas
