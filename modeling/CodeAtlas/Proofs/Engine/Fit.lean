import CodeAtlas.Proofs.Engine.Reset
import CodeAtlas.Proofs.Extent.Map

/-!
# Fitting the camera

A camera that is fitted to a rectangle shows all of it, in the middle and as
large as the viewport allows.  The rectangle that a map is fitted to is the least
one around its boxes, so every box is shown with the margin around it.  Fitting
needs a viewport with an area, which no operation takes away.
-/

namespace CodeAtlas

namespace Camera

variable [Approximations]

/-- The camera shows all of a rectangle in its middle, and nothing beyond two of
its sides, in the shape of the viewport. -/
structure Frames (camera : Camera ℚ) (target : Rect ℚ) : Prop where
  within : target.Within camera.bounds
  centered : camera.center = target.center
  touches : camera.left = target.min.x ∧ camera.right = target.max.x ∨
    camera.top = target.min.y ∧ camera.bottom = target.max.y
  aspect : camera.width / camera.height = camera.viewport.x / camera.viewport.y

theorem center_centered (camera : Camera ℚ) (center : Vec ℚ) (width height : ℚ) :
    (camera.centered center width height).center = center := by
  cases center with
  | mk x y =>
    simp only [centered, Camera.center, Exact.half_eq, Vec.mk.injEq]
    constructor <;> ring

/-- A camera over the centre of a rectangle frames it if it is as large on one
axis and not smaller on the other. -/
theorem frames_centered {camera : Camera ℚ} {target : Rect ℚ} {width height : ℚ}
    (wide : target.width ≤ width) (high : target.height ≤ height)
    (tight : width = target.width ∨ height = target.height)
    (aspect : width / height = camera.viewport.x / camera.viewport.y) :
    (camera.centered target.center width height).Frames target := by
  have left : (camera.centered target.center width height).left =
      target.min.x - (width - target.width) / 2 := by
    simp only [centered, Rect.center, Exact.half_eq]
    ring
  have right : (camera.centered target.center width height).right =
      target.max.x + (width - target.width) / 2 := by
    simp only [centered, Rect.center, Rect.width, Exact.half_eq]
    ring
  have top : (camera.centered target.center width height).top =
      target.min.y - (height - target.height) / 2 := by
    simp only [centered, Rect.center, Exact.half_eq]
    ring
  have bottom : (camera.centered target.center width height).bottom =
      target.max.y + (height - target.height) / 2 := by
    simp only [centered, Rect.center, Rect.height, Exact.half_eq]
    ring
  refine ⟨⟨?_, ?_, ?_, ?_⟩, center_centered camera _ _ _, ?_, by simpa using aspect⟩
  · change (camera.centered target.center width height).left ≤ _
    linarith
  · change _ ≤ (camera.centered target.center width height).right
    linarith
  · change (camera.centered target.center width height).top ≤ _
    linarith
  · change _ ≤ (camera.centered target.center width height).bottom
    linarith
  · rw [left, right, top, bottom]
    rcases tight with rfl | rfl
    · exact Or.inl ⟨by ring, by ring⟩
    · exact Or.inr ⟨by ring, by ring⟩

/-- A fitted camera frames the rectangle and its margin. -/
theorem frames_fit {camera : Camera ℚ} (viewportWidth : 0 < camera.viewport.x)
    (viewportHeight : 0 < camera.viewport.y) {content : Rect ℚ} {margin : ℚ}
    (height : Scalar.epsilon ≤ (content.expand margin).height) :
    (camera.fit content margin).Frames (content.expand margin) := by
  have heightPositive : 0 < (content.expand margin).height := Exact.epsilon_pos.trans_le height
  have aspectPositive : 0 < camera.viewport.x / camera.viewport.y :=
    div_pos viewportWidth viewportHeight
  unfold Camera.fit
  dsimp only
  rw [Exact.max_eq, max_eq_left height]
  -- The axis along which the rectangle is longer, for this viewport, stays tight.
  split
  · next longer =>
      rw [le_div_iff₀ heightPositive] at longer
      have widthPositive : 0 < (content.expand margin).width :=
        (mul_pos aspectPositive heightPositive).trans_le longer
      apply frames_centered (le_refl _) _ (Or.inl rfl)
      · rw [div_div_cancel₀ widthPositive.ne']
      · rw [le_div_iff₀ aspectPositive, mul_comm]
        exact longer
  · next shorter =>
      rw [not_le, div_lt_iff₀ heightPositive] at shorter
      apply frames_centered _ (le_refl _) (Or.inr rfl)
      · rw [mul_div_cancel_left₀ _ heightPositive.ne']
      · rw [mul_comm]
        exact shorter.le

/-! ## Viewports -/

theorem viewport_zoom {camera next : Camera ℚ} {screen : Vec ℚ}
    {notches step minExtent maxExtent : ℚ} {changed : Bool}
    (zoomed : camera.zoom screen notches step minExtent maxExtent = .ok (changed, next)) :
    next.viewport = camera.viewport := by
  rcases zoom_cases zoomed with rfl | ⟨ratio, rfl⟩ <;> rfl

/-- A move keeps the area of a viewport: a viewport without one is refused. -/
theorem viewport_pos_move {camera next : Camera ℚ}
    (positive : 0 < camera.viewport.x ∧ 0 < camera.viewport.y) {move : Move ℚ}
    (moved : camera.move move = .ok next) : 0 < next.viewport.x ∧ 0 < next.viewport.y := by
  cases move with
  | pan delta =>
    cases moved
    exact positive
  | zoom screen notches step minExtent maxExtent =>
    rcases exists_zoom_of_move moved with ⟨changed, zoomed⟩
    rw [viewport_zoom zoomed]
    exact positive
  | resize viewportWidth viewportHeight =>
    cases moved
    unfold Camera.resize
    split
    · exact positive
    · next accepted => simpa using accepted
  | fit content margin =>
    cases moved
    rw [viewport_fit]
    exact positive

end Camera

namespace Engine

/-! ## The camera along a run -/

section Moves

variable {R : Type} [Scalar R] {engine next : Engine R}

theorem camera_relayout (engine : Engine R) : engine.relayout.camera = engine.camera := by
  rw [relayout_eq_laidOut]
  rfl

theorem camera_fitToContent {bounds : Rect R} (bounded : engine.contentBounds = some bounds) :
    engine.fitToContent.2.camera = engine.camera.fit bounds engine.config.camera.fitMargin := by
  rw [fitToContent, bounded]

/-- The camera stays or makes one move. -/
def Turns (engine next : Engine R) : Prop :=
  next.camera = engine.camera ∨ ∃ move, engine.camera.move move = .ok next.camera

theorem turns_fitToContent {engine before : Engine R} (same : before.camera = engine.camera) :
    engine.Turns before.fitToContent.2 := by
  unfold fitToContent
  split
  · exact Or.inl same
  · next bounds _ => exact Or.inr ⟨.fit bounds before.config.camera.fitMargin, by rw [← same]; rfl⟩

theorem camera_withRows (engine : Engine R) (change : Bool × Registry R) :
    (engine.withRows change).2.camera = engine.camera := by
  rcases change with ⟨changed, reg⟩
  cases changed with
  | false => rfl
  | true => exact (camera_relayout _).trans (camera_leaveSequence _)

theorem camera_click (engine : Engine R) (screen : Vec R) :
    (engine.click screen).2.camera = engine.camera := by
  unfold click
  dsimp only
  split
  case h_6 => split <;> rfl
  all_goals rfl

theorem camera_rightClick (engine : Engine R) (screen : Vec R) :
    (engine.rightClick screen).camera = engine.camera := by
  unfold rightClick
  split <;> rfl

theorem turns_of_viewing {operation : Operation R} (viewing : operation.isViewing = true)
    (applied : engine.apply operation = .ok next) :
    engine.Turns next := by
  cases operation with
  | fitToContent =>
    cases applied
    exact turns_fitToContent rfl
  | resize width height =>
    cases applied
    exact Or.inr ⟨.resize width height, rfl⟩
  | pointerMove screen =>
    cases applied
    unfold pointerMove
    dsimp only
    split
    · exact Or.inl rfl
    · next delta _ => exact Or.inr ⟨.pan delta, rfl⟩
    · exact Or.inl rfl
  | pointerUp screen button =>
    cases applied
    apply Or.inl
    unfold pointerUp
    dsimp only
    split
    · exact camera_click _ _
    · exact camera_rightClick _ _
    · rfl
  | wheel screen notches =>
    rcases exists_wheel_of_apply applied with ⟨changed, turned⟩
    rcases exists_zoom_of_wheel turned with ⟨camera, zoomed, rfl⟩
    exact Or.inr ⟨.zoom screen notches _ _ _, by rw [Camera.move, zoomed]; rfl⟩
  | pointerDown screen button =>
    cases applied
    exact Or.inl rfl
  | pointerLeave =>
    cases applied
    exact Or.inl rfl
  | _ => cases viewing

theorem turns_of_apply {operation : Operation R}
    (applied : engine.apply operation = .ok next) : engine.Turns next := by
  by_cases viewing : operation.isViewing = true
  · exact turns_of_viewing viewing applied
  cases rows : engine.rowsResult? operation with
  | some change =>
    rw [apply_of_rows rows] at applied
    obtain rfl := Except.ok.inj applied
    exact Or.inl (camera_withRows engine change)
  | none =>
    cases operation with
    | setPerspective perspective =>
      cases applied
      unfold setPerspective
      split
      · exact Or.inl rfl
      · exact Or.inl (camera_leaveSequence engine)
    | setData nodes links =>
      cases applied
      exact turns_fitToContent ((camera_relayout _).trans (camera_leaveSequence engine))
    | addData nodes links =>
      cases applied
      apply Or.inl
      unfold addData
      dsimp only
      split
      · exact (camera_relayout _).trans (camera_leaveSequence _)
      · rfl
    | deleteNode id =>
      cases applied
      apply Or.inl
      unfold deleteNode
      dsimp only
      split
      · rfl
      · exact (camera_relayout _).trans (camera_leaveSequence _)
    | clear =>
      cases applied
      exact Or.inl (camera_leaveSequence engine)
    | focusOnClass classId =>
      cases applied
      unfold focusOnClass
      split
      · exact Or.inl rfl
      · exact turns_fitToContent ((camera_relayout _).trans (camera_leaveSequence _))
    | showSequence root =>
      cases applied
      unfold showSequence
      dsimp only
      split
      · exact Or.inl (camera_leaveSequence engine)
      · next view lending _ =>
          have turned : engine.Turns ({ engine.leaveSequence.2 with
              registry := lending, mode := .sequence view,
              interaction := {} }.rebuildScene.fitToContent.2) :=
            turns_fitToContent (camera_leaveSequence engine)
          exact turned
    | exitSequence =>
      cases applied
      rcases left : engine.leaveSequence with ⟨shown, after⟩
      have same : after.camera = engine.camera := by
        rw [← camera_leaveSequence engine, left]
      rw [exitSequence, left]
      cases shown with
      | false => exact Or.inl same
      | true => exact turns_fitToContent same
    | relayout =>
      cases applied
      exact Or.inl (camera_relayout engine)
    | _ => first | exact absurd rfl viewing | cases rows

end Moves

variable [Approximations]

/-- The viewport has an area after every run. -/
theorem viewport_pos_of_run {config : EngineConfig ℚ} {text : TextMetrics ℚ}
    {layouter : Layouter ℚ} {viewport : Vec ℚ} {operations : List (Operation ℚ)}
    {engine : Engine ℚ}
    (ran : (withLayouter config text layouter viewport).run operations = .ok engine) :
    0 < engine.camera.viewport.x ∧ 0 < engine.camera.viewport.y := by
  apply run_induction _ _ ran
  · simp [withLayouter, Camera.create]
  · intro before next operation _ positive applied
    rcases turns_of_apply applied with same | ⟨move, moved⟩
    · rw [same]
      exact positive
    · exact Camera.viewport_pos_move positive moved

/-! ## Fitting a map -/

/-- What is fitted is framed with its margin. -/
theorem frames_fitToContent {engine : Engine ℚ}
    (viewport : 0 < engine.camera.viewport.x ∧ 0 < engine.camera.viewport.y)
    {bounds : Rect ℚ} (content : engine.contentBounds = some bounds)
    (height : Scalar.epsilon ≤ (bounds.expand engine.config.camera.fitMargin).height) :
    engine.fitToContent.2.camera.Frames (bounds.expand engine.config.camera.fitMargin) := by
  rw [camera_fitToContent content]
  exact Camera.frames_fit viewport.1 viewport.2 height

/-- A fitted camera shows all of the rectangle with its margin: in the middle,
without room to spare on one axis, and undistorted.  So a fitted map shows every
box with the margin around it, and the viewport has an area whenever a map is
fitted. -/
theorem fit_shows_all :
    (∀ (camera : Camera ℚ) (content : Rect ℚ) (margin : ℚ),
      0 < camera.viewport.x → 0 < camera.viewport.y →
      Scalar.epsilon ≤ (content.expand margin).height →
        (camera.fit content margin).viewport = camera.viewport ∧
        (camera.fit content margin).Frames (content.expand margin)) ∧
    (∀ engine : Engine ℚ, engine.mode = .graph →
      0 < engine.camera.viewport.x → 0 < engine.camera.viewport.y →
      (∀ bounds, engine.registry.bounds = some bounds →
        Scalar.epsilon ≤ (bounds.expand engine.config.camera.fitMargin).height) →
        (∀ bounds, engine.registry.bounds = some bounds →
          engine.fitToContent.2.camera.Frames (bounds.expand engine.config.camera.fitMargin)) ∧
        (∀ node ∈ engine.registry.classes.items,
          (node.rect.expand engine.config.camera.fitMargin).Within
            engine.fitToContent.2.camera.bounds) ∧
        ∀ node ∈ engine.registry.standalone.items,
          (node.rect.expand engine.config.camera.fitMargin).Within
            engine.fitToContent.2.camera.bounds) ∧
    ∀ (config : EngineConfig ℚ) (text : TextMetrics ℚ) (layouter : Layouter ℚ)
      (viewport : Vec ℚ) (operations : List (Operation ℚ)) (engine : Engine ℚ),
      (withLayouter config text layouter viewport).run operations = .ok engine →
        0 < engine.camera.viewport.x ∧ 0 < engine.camera.viewport.y := by
  refine ⟨?_, ?_, fun _ _ _ _ _ _ ran => viewport_pos_of_run ran⟩
  · intro camera content margin viewportWidth viewportHeight height
    exact ⟨camera.viewport_fit content margin,
      Camera.frames_fit viewportWidth viewportHeight height⟩
  · intro engine graph viewportWidth viewportHeight high
    have frames : ∀ bounds, engine.registry.bounds = some bounds →
        engine.fitToContent.2.camera.Frames (bounds.expand engine.config.camera.fitMargin) := by
      intro bounds bounded
      apply frames_fitToContent ⟨viewportWidth, viewportHeight⟩ _ (high bounds bounded)
      rw [contentBounds, graph]
      exact bounded
    refine ⟨frames, ?_, ?_⟩
    · intro node mem
      rcases engine.registry.exists_bounds_class mem with ⟨bounds, bounded, within⟩
      exact (within.expand (le_refl _)).trans (frames bounds bounded).within
    · intro node mem
      rcases engine.registry.exists_bounds_standalone mem with ⟨bounds, bounded, within⟩
      exact (within.expand (le_refl _)).trans (frames bounds bounded).within

/-- An empty diagram that puts one package to the right of the other and below. -/
def packagesStart : Engine ℚ :=
  withLayouter .standard (.monospace 13) (fun _ _ => [("app", ⟨0, 0⟩), ("lib", ⟨300, 200⟩)])
    ⟨800, 600⟩

omit [Approximations] in
/-- Two packages are shown with 40 units around them. -/
theorem fit_shows_all_sample :
    letI : Approximations := .sample
    ∃ engine,
      packagesStart.run [.setPerspective .architecture, .setData packageNodes packageLinks] =
        .ok engine ∧
      engine.registry.standalone.keys = ["app", "lib"] ∧
      0 < engine.camera.viewport.x ∧ 0 < engine.camera.viewport.y ∧
      (∀ bounds ∈ engine.registry.bounds, Scalar.epsilon ≤ (bounds.expand 40).height) ∧
      ∀ node ∈ engine.registry.standalone.items,
        (node.rect.expand 40).Within engine.fitToContent.2.camera.bounds := by
  let _ : Approximations := .sample
  obtain ⟨engine, made⟩ : ∃ engine, engine =
      ((packagesStart.setPerspective .architecture).2.setData packageNodes packageLinks).2 :=
    ⟨_, rfl⟩
  have ran : packagesStart.run [.setPerspective .architecture,
      .setData packageNodes packageLinks] = .ok engine := by
    rw [made]
    rfl
  have keys : engine.registry.standalone.keys = ["app", "lib"] := by
    rw [made]
    decide +kernel
  have graph : engine.mode = .graph := by
    rw [made]
    exact (upToDate_setData _ _ _).2
  have margin : engine.config.camera.fitMargin = 40 := by
    have config : engine.config = .standard := congrArg Prod.fst (made_of_run ran).1
    rw [config]
    decide +kernel
  have high : ∀ bounds ∈ engine.registry.bounds, Scalar.epsilon ≤ (bounds.expand 40).height := by
    rw [made]
    decide +kernel
  rcases fit_shows_all.2.2 _ _ _ _ _ _ ran with ⟨width, height⟩
  rcases fit_shows_all.2.1 engine graph width height (by rw [margin]; exact high) with ⟨_, _, boxes⟩
  rw [margin] at boxes
  exact ⟨engine, ran, keys, width, height, high, boxes⟩

end Engine

end CodeAtlas
