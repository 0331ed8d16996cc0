import CodeAtlas.Proofs.Extent.Map
import CodeAtlas.Proofs.Lanes

/-!
# How far a call diagram reaches

The least rectangle around a call diagram has its lanes, the lines of its calls
and their labels in it, and arrowheads stay near the lines.  Only the name of a
class can reach further: lanes have one width, whatever the names on them.
-/

namespace CodeAtlas

section Parts

variable {R : Type} [Scalar R]

/-- A lane has its header and its line around one axis, and its slot stands for
the label of its name. -/
structure Lane.Stands (lane : Lane R) (settings : SequenceSettings R) (text : TextMetrics R)
    (callCount : Nat) (pool : Pool R) : Prop where
  placed : ∃ x, lane.header = .ofPosSize ⟨x - settings.laneWidth * 0.5, 0.0⟩
      ⟨settings.laneWidth, settings.headerHeight⟩ ∧
    lane.lifeline = (⟨x, settings.headerHeight⟩, ⟨x, SequenceView.rowY settings callCount⟩)
  label : pool.Names lane.label (.label (text.rasterize lane.name SequenceView.labelStyle))

/-- The tip of an arrow is a corner of its line. -/
def CallArrow.Pointed (arrow : CallArrow R) (settings : SequenceSettings R) : Prop :=
  ∃ tip ∈ arrow.path, ∃ start,
    arrow.head = arrowhead tip start settings.arrowLength settings.arrowWidth

/-- The label of an arrow has the size of a picture. -/
def CallArrow.Labelled (arrow : CallArrow R) : Prop :=
  ∃ bitmap : LabelBitmap, (∃ position, arrow.labelRect = .ofPosSize position bitmap.size) ∨
    ∃ center, arrow.labelRect = .ofCenterSize center bitmap.size

namespace SequenceView

variable {settings : SequenceSettings R} {text : TextMetrics R}

theorem stands_lanesFrom (callCount index : Nat) (named : List (NodeId × String)) (pool : Pool R) :
    ∀ lane ∈ (lanesFrom settings text callCount index named pool).1,
      lane.Stands settings text callCount
        (lanesFrom settings text callCount index named pool).2 := by
  induction named generalizing index pool with
  | nil =>
    intro lane mem
    cases mem
  | cons first rest ih =>
    intro item mem
    rcases List.mem_cons.mp mem with rfl | later
    · constructor
      · exact ⟨_, rfl, rfl⟩
      · exact (Pool.names_allocate pool _).evolve
          (evolves_lanesFrom settings text callCount (index + 1) rest _) List.not_mem_nil
    · exact ih _ _ item later

theorem arrow_pointed_labelled (lanes : List (Lane R)) (laneIds : List NodeId) (index : Nat)
    (call : Call) (pool : Pool R) :
    (arrow settings text lanes laneIds index call pool).1.Pointed settings ∧
      (arrow settings text lanes laneIds index call pool).1.Labelled := by
  unfold arrow
  dsimp only
  split
  · exact ⟨⟨_, by simp, _, rfl⟩, _, Or.inl ⟨_, rfl⟩⟩
  · exact ⟨⟨_, by simp, _, rfl⟩, _, Or.inr ⟨_, rfl⟩⟩

theorem pointed_labelled_arrowsFrom (lanes : List (Lane R)) (laneIds : List NodeId)
    (index : Nat) (calls : List Call) (pool : Pool R) :
    ∀ arrow ∈ (arrowsFrom settings text lanes laneIds index calls pool).1,
      arrow.Pointed settings ∧ arrow.Labelled := by
  induction calls generalizing index pool with
  | nil =>
    intro arrow mem
    cases mem
  | cons call rest ih =>
    intro item mem
    rcases List.mem_cons.mp mem with rfl | later
    · exact arrow_pointed_labelled lanes laneIds index call pool
    · exact ih _ _ item later

/-- The parts of a diagram stand where its settings put them. -/
theorem drawn_of_build {reg lending : Registry R} {root : NodeId}
    {interaction : InteractionSettings R} {view : SequenceView R}
    (built : build reg root settings interaction = some (view, lending)) :
    (∀ lane ∈ view.lanes, lane.Stands settings reg.text view.calls.length lending.pool) ∧
      ∀ arrow ∈ view.arrows, arrow.Pointed settings ∧ arrow.Labelled := by
  simp only [build, Option.bind_eq_bind, Option.bind_eq_some_iff, Option.pure_def,
    Option.some.injEq, Prod.mk.injEq] at built
  rcases built with ⟨calls, _, method, _, rfl, rfl⟩
  constructor
  · intro lane mem
    rcases stands_lanesFrom _ _ _ _ lane mem with ⟨placed, label⟩
    exact ⟨placed, label.evolve (evolves_arrowsFrom _ _ _ _ _ _ _) List.not_mem_nil⟩
  · exact pointed_labelled_arrowsFrom _ _ _ _ _

end SequenceView

end Parts

variable [Approximations] {text : TextMetrics ℚ} {lane : Lane ℚ} {pool : Pool ℚ} {callCount : Nat}

/-! ## Plates of lanes -/

/-- The plate with the name of a lane, in the middle of its header. -/
def Lane.plate (lane : Lane ℚ) (text : TextMetrics ℚ) : Rect ℚ :=
  .ofCenterSize lane.header.center
    ⟨text.plateWidth lane.name (SequenceView.labelStyle : LabelStyle ℚ).paddingX, text.plateHeight⟩

theorem Scene.labelArea_center (place : Rect ℚ) (size : Vec ℚ) :
    Scene.labelArea place size .center = .ofCenterSize place.center size := by
  have around : Rect.ofCenterSize place.center size =
      ⟨⟨place.center.x - size.x * 0.5, place.center.y - size.y * 0.5⟩,
        ⟨place.center.x + size.x * 0.5, place.center.y + size.y * 0.5⟩⟩ := rfl
  have area : Scene.labelArea place size .center =
      ⟨⟨place.center.x - size.x * 0.5, place.center.y - size.y * 0.5⟩,
        ⟨place.center.x - size.x * 0.5 + size.x, place.center.y - size.y * 0.5 + size.y⟩⟩ := rfl
  rw [around, area, Exact.half_eq]
  congr 2 <;> ring

theorem Rect.proper_ofCenterSize (center : Vec ℚ) {size : Vec ℚ} (width : 0 ≤ size.x)
    (height : 0 ≤ size.y) : (Rect.ofCenterSize center size).Proper := by
  constructor
  · change center.x - size.x * 0.5 ≤ center.x + size.x * 0.5
    rw [Exact.half_eq]
    linarith
  · change center.y - size.y * 0.5 ≤ center.y + size.y * 0.5
    rw [Exact.half_eq]
    linarith

theorem Lane.plate_proper (lane : Lane ℚ) (text : TextMetrics ℚ) : (lane.plate text).Proper :=
  Rect.proper_ofCenterSize _ (Nat.cast_nonneg _) (Nat.cast_nonneg _)

/-- No extent of a call diagram is negative, and plates are no higher than the
headers of lanes. -/
structure SequenceSettings.Legible (settings : SequenceSettings ℚ) (text : TextMetrics ℚ) :
    Prop where
  header : (text.plateHeight : ℚ) ≤ settings.headerHeight
  laneWidth : 0 ≤ settings.laneWidth
  rowHeight : 0 ≤ settings.rowHeight
  arrowLength : 0 ≤ settings.arrowLength
  arrowWidth : 0 ≤ settings.arrowWidth

namespace SequenceView

variable {reg lending : Registry ℚ} {root : NodeId} {settings : SequenceSettings ℚ}
  {interaction : InteractionSettings ℚ} {view : SequenceView ℚ} {around : Rect ℚ}

/-! ## Lanes -/

/-- Header and line of a lane lie in the least rectangle around the diagram. -/
theorem lane_within (bounds : view.bounds = some around) (mem : lane ∈ view.lanes) :
    lane.header.Within around ∧ Rect.Within ⟨lane.lifeline.1, lane.lifeline.2⟩ around := by
  have joined := Rect.within_of_unionAll bounds _
    (List.mem_append_left _ (List.mem_map_of_mem mem))
  exact ⟨(Rect.within_union_left _ _).trans joined, (Rect.within_union_right _ _).trans joined⟩

theorem header_proper (legible : settings.Legible text)
    (stands : lane.Stands settings text callCount pool) :
    lane.header.Proper := by
  rcases stands.placed with ⟨x, header, _⟩
  rw [header]
  exact Rect.proper_ofPosSize _ legible.laneWidth ((Nat.cast_nonneg _).trans legible.header)

omit [Approximations] in
/-- What stands in the middle of a stretch reaches out equally at both ends. -/
theorem centered_within {low high extent margin : ℚ} (room : extent ≤ high - low + 2 * margin) :
    low - margin ≤ low + (high - low) * 0.5 - extent * 0.5 ∧
      low + (high - low) * 0.5 + extent * 0.5 ≤ high + margin := by
  rw [Exact.half_eq]
  constructor <;> linarith

/-- A plate stays between top and bottom of its header. -/
theorem plate_vertical (legible : settings.Legible text)
    (stands : lane.Stands settings text callCount pool) :
    lane.header.min.y ≤ (lane.plate text).min.y ∧ (lane.plate text).max.y ≤ lane.header.max.y := by
  rcases stands.placed with ⟨x, header, _⟩
  have high : lane.header.max.y - lane.header.min.y = settings.headerHeight := by
    rw [header]
    exact add_sub_cancel_left _ _
  have room : (text.plateHeight : ℚ) ≤ lane.header.max.y - lane.header.min.y + 2 * 0 := by
    rw [high, mul_zero, add_zero]
    exact legible.header
  have inside := centered_within room
  rw [sub_zero, add_zero] at inside
  exact inside

/-- A plate reaches out of its lane on both sides, as far as it is wider. -/
theorem plate_horizontal {text : TextMetrics ℚ} {lane : Lane ℚ} {callCount : Nat} {pool : Pool ℚ}
    (stands : lane.Stands settings text callCount pool) {margin : ℚ}
    (room : (text.plateWidth lane.name (labelStyle : LabelStyle ℚ).paddingX : ℚ) ≤
      settings.laneWidth + 2 * margin) :
    lane.header.min.x - margin ≤ (lane.plate text).min.x ∧
      (lane.plate text).max.x ≤ lane.header.max.x + margin := by
  rcases stands.placed with ⟨x, header, _⟩
  have wide : lane.header.max.x - lane.header.min.x = settings.laneWidth := by
    rw [header]
    exact add_sub_cancel_left _ _
  rw [← wide] at room
  exact centered_within room

/-- The line of a lane runs downwards. -/
theorem lifeline_proper (legible : settings.Legible text)
    (stands : lane.Stands settings text callCount pool) :
    Rect.Proper ⟨lane.lifeline.1, lane.lifeline.2⟩ := by
  rcases stands.placed with ⟨x, _, lifeline⟩
  have below := mul_nonneg (add_nonneg (Nat.cast_nonneg callCount) zero_le_one) legible.rowHeight
  rw [lifeline]
  refine ⟨le_refl _, ?_⟩
  simp only [rowY, Exact.ofNat_eq, Exact.one_eq]
  linarith

/-! ## Arrows -/

/-- Line, head and label of an arrow stay near the least rectangle around the
diagram. -/
theorem staysIn_callArrow (bounded : Approximations.Bounded) (legible : settings.Legible text)
    (bounds : view.bounds = some around) {arrow : CallArrow ℚ} (mem : arrow ∈ view.arrows)
    (pointed : arrow.Pointed settings) (labelled : arrow.Labelled) (halfWidth : ℚ) :
    ∀ primitive ∈ Scene.callArrow halfWidth arrow,
      primitive.StaysIn (around.expand (settings.arrowLength + settings.arrowWidth / 2)) := by
  rcases pointed with ⟨tip, tipMem, start, head⟩
  obtain ⟨path, pathBounds⟩ : ∃ path, Rect.bounding arrow.path = some path := by
    rw [Rect.bounding_eq_unionAll]
    exact Rect.exists_unionAll (List.ne_nil_of_mem (List.mem_map_of_mem tipMem))
  have joined : (path.union arrow.labelRect).Within around := by
    apply Rect.within_of_unionAll bounds
    apply List.mem_append_right
    exact List.mem_filterMap.mpr ⟨arrow, mem, by rw [pathBounds]; rfl⟩
  have line : ∀ point ∈ arrow.path, around.contains point = true := fun point isCorner =>
    ((Rect.within_union_left _ _).trans joined).contains
      (Rect.contains_of_bounding pathBounds point isCorner)
  have lengthNonneg := legible.arrowLength
  have widthNonneg := legible.arrowWidth
  have wider : around.Within (around.expand (settings.arrowLength + settings.arrowWidth / 2)) :=
    around.within_expand (by positivity)
  intro primitive part
  simp only [Scene.callArrow, List.mem_cons, List.not_mem_nil, or_false] at part
  rcases part with rfl | rfl | rfl
  · exact fun corner isCorner => wider.contains (line corner isCorner)
  · intro corner isCorner
    change corner ∈ arrow.head at isCorner
    rw [head] at isCorner
    exact contains_arrowhead bounded (line tip tipMem) start lengthNonneg widthNonneg corner
      isCorner
  · have proper : arrow.labelRect.Proper := by
      rcases labelled with ⟨bitmap, ⟨position, area⟩ | ⟨center, area⟩⟩
      · rw [area]
        exact Rect.proper_ofPosSize _ (by simp [LabelBitmap.size]) (by simp [LabelBitmap.size])
      · rw [area]
        exact Rect.proper_ofCenterSize _ (by simp [LabelBitmap.size]) (by simp [LabelBitmap.size])
    exact Scene.staysIn_of_within rfl proper
      (((Rect.within_union_right _ _).trans joined).trans wider)

/-! ## The whole diagram -/

/-- Every diagram has a lane. -/
theorem exists_lane_of_build (built : build reg root settings interaction = some (view, lending)) :
    ∃ lane, lane ∈ view.lanes := by
  rcases build_cases reg root settings interaction with
    ⟨_, failed⟩ | ⟨method, _, _, _, succeeded, _, laneIds, _⟩
  · rw [failed] at built
    cases built
  · rw [succeeded] at built
    cases built
    apply List.exists_mem_of_ne_nil
    intro none
    rw [none] at laneIds
    exact laneOrder_ne_nil _ _ laneIds.symm

theorem exists_bounds_of_build
    (built : build reg root settings interaction = some (view, lending)) :
    ∃ around, view.bounds = some around := by
  rcases exists_lane_of_build built with ⟨lane, mem⟩
  exact Rect.exists_unionAll
    (List.ne_nil_of_mem (List.mem_append_left _ (List.mem_map_of_mem mem)))

/-- The label of a lane is the plate with its name. -/
theorem kind_of_laneLabel
    (stands : lane.Stands settings text callCount pool) {role : Role} {primitive : Primitive ℚ}
    (drawn : primitive ∈ Scene.label pool role (some lane.label) lane.header .center) :
    primitive.role = role ∧ primitive.kind = .label lane.label (lane.plate text) := by
  rcases Scene.mem_label_iff.mp drawn with ⟨id, bitmap, same, found, rfl⟩
  obtain rfl := Option.some.inj same
  obtain rfl := stands.label.label_eq found
  refine ⟨rfl, ?_⟩
  dsimp only
  rw [Scene.labelArea_center, TextMetrics.size_rasterize]
  rfl

/-- Everything on a call diagram stays near the least rectangle around it, but
for the names of its lanes. -/
theorem staysIn_ofSequence (built : build reg root settings interaction = some (view, lending))
    (legible : settings.Legible reg.text) (bounded : Approximations.Bounded)
    (bounds : view.bounds = some around) :
    ∀ primitive ∈ (Scene.ofSequence view lending.pool).primitives,
      primitive.StaysIn (around.expand (settings.arrowLength + settings.arrowWidth / 2)) ∨
        ∃ lane ∈ view.lanes, (∃ index, primitive.role = .laneHeader index lane.classId) ∧
          primitive.kind = .label lane.label (lane.plate reg.text) := by
  rcases drawn_of_build built with ⟨lanes, arrows⟩
  have lengthNonneg := legible.arrowLength
  have widthNonneg := legible.arrowWidth
  have wider : around.Within (around.expand (settings.arrowLength + settings.arrowWidth / 2)) :=
    around.within_expand (by positivity)
  intro primitive part
  rcases List.mem_append.mp part with inLane | inArrow
  · rcases List.mem_flatMap.mp inLane with ⟨⟨lane, index⟩, listed, drawn⟩
    have mem : lane ∈ view.lanes := (List.mem_zipIdx' listed).2 ▸ List.getElem_mem _
    have stands := lanes lane mem
    rcases lane_within bounds mem with ⟨header, lifeline⟩
    rcases List.mem_cons.mp drawn with rfl | others
    · left
      have proper := lifeline_proper legible stands
      intro corner isCorner
      rcases List.mem_pair.mp isCorner with rfl | rfl
      · exact (lifeline.trans wider).contains proper.contains_min
      · exact (lifeline.trans wider).contains proper.contains_max
    · rcases List.mem_cons.mp others with rfl | label
      · left
        exact Scene.staysIn_of_within rfl (header_proper legible stands) (header.trans wider)
      · right
        rcases kind_of_laneLabel stands label with ⟨role, kind⟩
        exact ⟨lane, mem, ⟨index, role⟩, kind⟩
  · left
    rcases List.mem_flatMap.mp inArrow with ⟨arrow, mem, drawn⟩
    rcases arrows arrow mem with ⟨pointed, labelled⟩
    exact staysIn_callArrow bounded legible bounds mem pointed labelled _ primitive drawn

/-- The name of every lane is drawn, as long as the diagram has its labels. -/
theorem exists_plate (built : build reg root settings interaction = some (view, lending))
    {rest : List Slot} (holds : lending.pool.Holds (rest ++ view.slots)) (mem : lane ∈ view.lanes) :
    ∃ primitive ∈ (Scene.ofSequence view lending.pool).primitives,
      primitive.kind = .label lane.label (lane.plate reg.text) := by
  have stands := (drawn_of_build built).1 lane mem
  have owned : (lane.label, ResourceKind.label) ∈ rest ++ view.slots := by
    apply List.mem_append_right
    apply List.mem_map_of_mem (List.mem_append_left _ (List.mem_map_of_mem mem))
  have live := holds.label?_of_names stands.label owned
  rcases List.mem_iff_getElem.mp mem with ⟨index, inside, at_index⟩
  let primitive : Primitive ℚ := ⟨.laneHeader index lane.classId, .label lane.label
    (Scene.labelArea lane.header (reg.text.rasterize lane.name labelStyle).size .center),
    .invisible, none⟩
  have drawn : primitive ∈ Scene.label lending.pool (.laneHeader index lane.classId)
      (some lane.label) lane.header .center :=
    Scene.mem_label_iff.mpr ⟨lane.label, _, rfl, live, rfl⟩
  refine ⟨primitive, ?_, (kind_of_laneLabel stands drawn).2⟩
  apply List.mem_append_left
  refine List.mem_flatMap.mpr ⟨(lane, index), ?_, ?_⟩
  · exact List.mem_zipIdx_iff_getElem?.mpr (by rw [List.getElem?_eq_getElem inside, at_index])
  · exact List.mem_cons_of_mem _ (List.mem_cons_of_mem _ drawn)

end SequenceView

end CodeAtlas
