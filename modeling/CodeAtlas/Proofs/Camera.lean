import CodeAtlas.Proofs.Exact
import CodeAtlas.Scene

/-!
# Painting and picking with one camera

Frames are painted with one scale for both axes, while the camera has a scale
for each.  They agree as long as the visible part of the world has the shape of
the viewport, and every move of the camera keeps it in shape.
-/

namespace CodeAtlas

namespace Camera

/-! ## Moves -/

section Moves

variable {R : Type} [Scalar R]

/-- What can be asked of a camera. -/
inductive Move (R : Type) where
  | pan (delta : Vec R)
  | zoom (screen : Vec R) (notches step minExtent maxExtent : R)
  | resize (viewportWidth viewportHeight : R)
  | fit (content : Rect R) (margin : R)

/-- The camera after a move, unless the move fails. -/
def move (camera : Camera R) : Move R → Except Fault (Camera R)
  | .pan delta => .ok (camera.pan delta)
  | .zoom screen notches step minExtent maxExtent =>
    (camera.zoom screen notches step minExtent maxExtent).map Prod.snd
  | .resize viewportWidth viewportHeight => .ok (camera.resize viewportWidth viewportHeight).2
  | .fit content margin => .ok (camera.fit content margin)

theorem exists_zoom_of_move {camera next : Camera R} {screen : Vec R}
    {notches step minExtent maxExtent : R}
    (moved : camera.move (.zoom screen notches step minExtent maxExtent) = .ok next) :
    ∃ changed, camera.zoom screen notches step minExtent maxExtent = .ok (changed, next) := by
  rw [move] at moved
  cases zoomed : camera.zoom screen notches step minExtent maxExtent with
  | error fault =>
    rw [zoomed] at moved
    cases moved
  | ok result =>
    rw [zoomed] at moved
    cases moved
    exact ⟨result.1, rfl⟩

/-- A zoom does nothing or scales the view around the world point under the
pointer. -/
theorem zoom_cases {camera next : Camera R} {screen : Vec R}
    {notches step minExtent maxExtent : R} {changed : Bool}
    (zoomed : camera.zoom screen notches step minExtent maxExtent = .ok (changed, next)) :
    next = camera ∨ ∃ ratio, next = camera.scaledAround (camera.screenToWorld screen) ratio := by
  unfold zoom at zoomed
  split at zoomed
  · cases zoomed
    exact Or.inl rfl
  · split at zoomed
    · cases zoomed
    · split at zoomed
      · cases zoomed
        exact Or.inl rfl
      · cases zoomed
        exact Or.inr ⟨_, rfl⟩

/-- A zoom has an answer when its limits are in order. -/
theorem exists_zoom (camera : Camera R) (screen : Vec R) (notches step : R)
    {minExtent maxExtent : R} (ordered : minExtent ≤ maxExtent) :
    ∃ result, camera.zoom screen notches step minExtent maxExtent = .ok result := by
  obtain ⟨height, clamped⟩ : ∃ height, Scalar.clamp? (camera.height / Scalar.pow step notches)
      minExtent maxExtent = some height :=
    ⟨_, if_pos ordered⟩
  unfold zoom
  rw [clamped]
  dsimp only
  split
  · exact ⟨_, rfl⟩
  · split <;> exact ⟨_, rfl⟩

end Moves

variable [Approximations] {camera : Camera ℚ}

/-! ## Extents after a move -/

section Extents

variable (camera : Camera ℚ)

@[simp]
theorem width_pan (delta : Vec ℚ) : (camera.pan delta).width = camera.width := by
  simp only [pan, width]
  ring

@[simp]
theorem height_pan (delta : Vec ℚ) : (camera.pan delta).height = camera.height := by
  simp only [pan, height]
  ring

@[simp]
theorem width_scaledAround (anchor : Vec ℚ) (ratio : ℚ) :
    (camera.scaledAround anchor ratio).width = camera.width * ratio := by
  simp only [scaledAround, width]
  ring

@[simp]
theorem height_scaledAround (anchor : Vec ℚ) (ratio : ℚ) :
    (camera.scaledAround anchor ratio).height = camera.height * ratio := by
  simp only [scaledAround, height]
  ring

@[simp]
theorem width_centered (center : Vec ℚ) (width height : ℚ) :
    (camera.centered center width height).width = width := by
  simp only [centered, Camera.width]
  ring

@[simp]
theorem height_centered (center : Vec ℚ) (width height : ℚ) :
    (camera.centered center width height).height = height := by
  simp only [centered, Camera.height]
  ring

end Extents

@[simp]
theorem viewport_pan (camera : Camera ℚ) (delta : Vec ℚ) :
    (camera.pan delta).viewport = camera.viewport :=
  rfl

@[simp]
theorem viewport_centered (camera : Camera ℚ) (center : Vec ℚ) (width height : ℚ) :
    (camera.centered center width height).viewport = camera.viewport :=
  rfl

/-! ## A camera in shape -/

/-- The visible part of the world has an area and the shape of the viewport. -/
structure InShape (camera : Camera ℚ) : Prop where
  viewportWidth : 0 < camera.viewport.x
  viewportHeight : 0 < camera.viewport.y
  width : 0 < camera.width
  height : 0 < camera.height
  aspect : camera.width / camera.height = camera.viewport.x / camera.viewport.y

/-- A camera over any centre with extents of the right ratio is in shape. -/
theorem inShape_centered (viewportWidth : 0 < camera.viewport.x)
    (viewportHeight : 0 < camera.viewport.y) (center : Vec ℚ) {width height : ℚ}
    (widthPositive : 0 < width) (heightPositive : 0 < height)
    (aspect : width / height = camera.viewport.x / camera.viewport.y) :
    (camera.centered center width height).InShape where
  viewportWidth := viewportWidth
  viewportHeight := viewportHeight
  width := by simpa using widthPositive
  height := by simpa using heightPositive
  aspect := by simpa using aspect

theorem inShape_create (viewportWidth viewportHeight : ℚ) {extent : ℚ} (positive : 0 < extent) :
    (create viewportWidth viewportHeight extent).InShape := by
  have viewportX : 0 < (create viewportWidth viewportHeight extent).viewport.x := by
    simp [create]
  have viewportY : 0 < (create viewportWidth viewportHeight extent).viewport.y := by
    simp [create]
  have width : (create viewportWidth viewportHeight extent).width =
      extent * (create viewportWidth viewportHeight extent).viewport.x /
        (create viewportWidth viewportHeight extent).viewport.y := by
    simp only [create, Camera.width]
    ring
  have height : (create viewportWidth viewportHeight extent).height = extent := by
    simp only [create, Camera.height]
    ring
  constructor
  · exact viewportX
  · exact viewportY
  · rw [width]
    positivity
  · rw [height]
    exact positive
  · rw [width, height]
    field_simp

section

variable (inShape : camera.InShape)
include inShape

theorem InShape.pan (delta : Vec ℚ) : (camera.pan delta).InShape where
  viewportWidth := inShape.viewportWidth
  viewportHeight := inShape.viewportHeight
  width := by simpa using inShape.width
  height := by simpa using inShape.height
  aspect := by simpa using inShape.aspect

/-- A view that is scaled by one ratio keeps its shape. -/
theorem InShape.scaledAround {anchor : Vec ℚ} {ratio : ℚ}
    (width : 0 < (camera.scaledAround anchor ratio).width)
    (height : 0 < (camera.scaledAround anchor ratio).height) :
    (camera.scaledAround anchor ratio).InShape := by
  have ratioNe : ratio ≠ 0 := by
    rintro rfl
    simp at height
  refine ⟨inShape.viewportWidth, inShape.viewportHeight, width, height, ?_⟩
  rw [width_scaledAround, height_scaledAround, mul_div_mul_right _ _ ratioNe]
  exact inShape.aspect

theorem InShape.resize (viewportWidth viewportHeight : ℚ) :
    (camera.resize viewportWidth viewportHeight).2.InShape := by
  unfold Camera.resize
  split
  · exact inShape
  · next accepted =>
      have height := inShape.height
      obtain ⟨viewportX, viewportY⟩ : 0 < viewportWidth ∧ 0 < viewportHeight := by
        simpa using accepted
      apply inShape_centered viewportX viewportY
      · positivity
      · exact height
      · field_simp

theorem InShape.fit {content : Rect ℚ} {margin : ℚ} (width : 0 < (camera.fit content margin).width)
    (height : 0 < (camera.fit content margin).height) : (camera.fit content margin).InShape := by
  have viewportX := inShape.viewportWidth
  have viewportY := inShape.viewportHeight
  unfold Camera.fit at width height ⊢
  dsimp only at width height ⊢
  -- Whichever axis is tighter, the other extent is made to match it.
  split at width
  · next wide =>
      rw [if_pos wide] at height ⊢
      rw [width_centered] at width
      rw [height_centered] at height
      apply inShape_centered viewportX viewportY _ width height
      field_simp
  · next high =>
      rw [if_neg high] at height ⊢
      rw [width_centered] at width
      rw [height_centered] at height
      apply inShape_centered viewportX viewportY _ width height
      field_simp

/-- A move keeps a camera in shape if it leaves something to see. -/
theorem InShape.move {next : Camera ℚ} {move : Move ℚ}
    (moved : camera.move move = .ok next) (width : 0 < next.width) (height : 0 < next.height) :
    next.InShape := by
  cases move with
  | pan delta =>
    cases moved
    exact inShape.pan delta
  | zoom screen notches step minExtent maxExtent =>
    rcases exists_zoom_of_move moved with ⟨changed, zoomed⟩
    rcases zoom_cases zoomed with rfl | ⟨ratio, rfl⟩
    · exact inShape
    · exact inShape.scaledAround width height
  | resize viewportWidth viewportHeight =>
    cases moved
    exact inShape.resize viewportWidth viewportHeight
  | fit content margin =>
    cases moved
    exact inShape.fit width height

end

/-! ## World and screen -/

/-- The world point under a pixel lies as far into the view as the pixel into the
viewport. -/
theorem screenToWorld_eq (camera : Camera ℚ) (screen : Vec ℚ) :
    camera.screenToWorld screen =
      ⟨camera.left + screen.x / camera.viewport.x * camera.width,
        camera.top + screen.y / camera.viewport.y * camera.height⟩ := by
  simp only [screenToWorld, screenToNormal, normalToWorld, Exact.one_eq, Exact.two_eq,
    Exact.half_eq, Vec.mk.injEq]
  constructor <;> ring

theorem InShape.screenToWorld_worldToScreen (inShape : camera.InShape)
    (world : Vec ℚ) : camera.screenToWorld (camera.worldToScreen world) = world := by
  have viewportX := inShape.viewportWidth
  have viewportY := inShape.viewportHeight
  have width := inShape.width
  have height := inShape.height
  rw [screenToWorld_eq, worldToScreen]
  cases world with
  | mk x y =>
    simp only [Vec.mk.injEq]
    constructor
    · field_simp
      ring
    · field_simp
      ring

/-- Painting puts a world point where the camera has it. -/
theorem InShape.toScreen_frame (inShape : camera.InShape) (scene : Scene ℚ) (state : Interaction)
    (world : Vec ℚ) :
    (scene.frame camera state).toScreen world = camera.worldToScreen world := by
  have width := inShape.width
  have height := inShape.height
  have vertical : camera.viewport.x / camera.width = camera.viewport.y / camera.height := by
    have viewportY := inShape.viewportHeight
    have aspect := inShape.aspect
    field_simp at aspect ⊢
    linarith
  have scale : (scene.frame camera state).scale = camera.viewport.x / camera.width := by
    apply if_pos
    rw [Exact.zero_eq]
    exact width
  simp only [Frame.toScreen, worldToScreen, Vec.mk.injEq]
  constructor
  · rw [scale]
    change (world.x - camera.left) * _ = _
    ring
  · rw [scale, vertical]
    change (world.y - camera.top) * _ = _
    ring

/-! ## Cameras that are reached -/

/-- The cameras that come from a new one by moves that leave something to see. -/
inductive Reached : Camera ℚ → Prop
  | create (viewportWidth viewportHeight : ℚ) {extent : ℚ} (positive : 0 < extent) :
      Reached (create viewportWidth viewportHeight extent)
  | move {camera next : Camera ℚ} (before : Reached camera) (move : Move ℚ)
      (moved : camera.move move = .ok next) (width : 0 < next.width)
      (height : 0 < next.height) : Reached next

theorem Reached.inShape (reached : Reached camera) : camera.InShape := by
  induction reached with
  | create viewportWidth viewportHeight positive =>
    exact inShape_create viewportWidth viewportHeight positive
  | move _ _ moved width height inShape => exact inShape.move moved width height

/-- The view of every camera that is reached has the aspect of its viewport, so
painting puts every world point where the camera has it, and picking there gives
the point back. -/
theorem painting_agrees_with_picking {camera : Camera ℚ} (reached : Reached camera) :
    camera.width / camera.height = camera.viewport.x / camera.viewport.y ∧
    ∀ world : Vec ℚ,
      (∀ (scene : Scene ℚ) (state : Interaction),
        (scene.frame camera state).toScreen world = camera.worldToScreen world) ∧
      camera.screenToWorld (camera.worldToScreen world) = world := by
  have inShape := reached.inShape
  refine ⟨inShape.aspect, ?_⟩
  intro world
  constructor
  · exact fun scene state => inShape.toScreen_frame scene state world
  · exact inShape.screenToWorld_worldToScreen world

/-- A new camera that was panned. -/
def samplePanned : Camera ℚ :=
  (create 800 600 1000).pan ⟨40, -30⟩

omit [Approximations] in
/-- A new camera is panned and then zoomed in by two notches. -/
theorem painting_agrees_sample :
    letI : Approximations := .sample
    let camera := samplePanned.scaledAround (samplePanned.screenToWorld ⟨100, 100⟩)
      (100000 / 121 / samplePanned.height)
    Reached camera ∧ camera.width / camera.height = 4 / 3 ∧
      ∀ world,
        (∀ scene state, (Scene.frame scene camera state).toScreen world =
          camera.worldToScreen world) ∧
        camera.screenToWorld (camera.worldToScreen world) = world := by
  let _ : Approximations := .sample
  intro camera
  have panned : Reached samplePanned :=
    .move (.create 800 600 (by decide +kernel)) (.pan ⟨40, -30⟩) rfl (by decide +kernel)
      (by decide +kernel)
  have zoomed : samplePanned.move (.zoom ⟨100, 100⟩ 2 (11 / 10) 40 100000) = .ok camera := by
    have clamped : Scalar.clamp? (samplePanned.height / Scalar.pow (11 / 10) 2) 40 100000 =
        some (100000 / 121) := by
      decide +kernel
    rw [move, zoom, if_neg (by decide +kernel), clamped]
    dsimp only
    rw [if_neg (by decide +kernel)]
    rfl
  have reached : Reached camera := .move panned _ zoomed (by decide +kernel) (by decide +kernel)
  obtain ⟨aspect, agrees⟩ := painting_agrees_with_picking reached
  refine ⟨reached, ?_, agrees⟩
  rw [aspect]
  decide +kernel

end Camera

end CodeAtlas
