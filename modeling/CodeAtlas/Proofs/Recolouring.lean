import CodeAtlas.Scene
import Mathlib.Data.List.Forall2

/-!
# Hover and selection only recolour

A frame leaves out what has no paint once hover and selection are applied.  As
every part of a scene other than a label has paint from the start, and neither
hover nor selection takes paint away, frames of one scene show the same parts in
the same order, whatever is hovered over and selected.  They differ in the paint of
parts that are hovered over or selected in one of them.
-/

namespace CodeAtlas

/-- Whether the selection marks the parts with a role.  The header of a class is
not marked, its background is. -/
def Interaction.selects (state : Interaction) : Role → Bool
  | .classBackground classId | .laneHeader _ classId => state.selectedClass == some classId
  | .methodRow _ methodId => state.selectedMethod == some methodId
  | .standalone nodeId => state.selectedNode == some nodeId
  | .callArrow index => state.selectedCall == some index
  | .classHeader _ | .edge _ | .lifeline _ => false

/-- Whether selection hides hover on parts with a role. -/
def Role.selectionHidesHover : Role → Bool
  | .methodRow _ _ | .callArrow _ => true
  | _ => false

variable {R : Type} [Scalar R] {reg : Registry R} {primitive : Primitive R}

/-! ## Paint -/

namespace Paint

variable {base : Paint R}

@[simp]
theorem isVisible_tinted : base.tinted.isVisible = base.isVisible := by
  simp [isVisible, tinted]

@[simp]
theorem isVisible_highlighted (color : Color) :
    (base.highlighted color).isVisible = base.isVisible := by
  simp [isVisible, highlighted]

@[simp]
theorem isVisible_outlined : base.outlined.isVisible = true := by
  simp [isVisible, outlined]

theorem isVisible_box (visible : base.isVisible = true) (hovered selected : Bool) :
    (base.box hovered selected).isVisible = true := by
  cases hovered <;> cases selected <;> simp [box, visible]

/-- Neither hover nor selection takes all paint away. -/
theorem isVisible_resolve (visible : base.isVisible = true) (role : Role) (state : Interaction) :
    (resolve role base state).isVisible = true := by
  cases role with
  | classBackground | classHeader | standalone | laneHeader => exact isVisible_box visible _ _
  | edge | lifeline => exact visible
  | methodRow =>
    dsimp only [resolve]
    split
    · rfl
    · split
      · rfl
      · exact visible
  | callArrow =>
    dsimp only [resolve]
    split
    · simpa using visible
    · split
      · simpa using visible
      · exact visible

/-- What is neither hovered over nor selected keeps its own paint. -/
theorem resolve_of_plain {role : Role} {state : Interaction}
    (notHovered : state.hovered ≠ some role) (notSelected : state.selects role = false) :
    resolve role base state = base := by
  have plain : (state.hovered == some role) = false := beq_eq_false_iff_ne.mpr notHovered
  cases role with
  | classBackground | standalone | laneHeader =>
    dsimp only [Interaction.selects] at notSelected
    simp [resolve, box, plain, notSelected]
  | classHeader => simp [resolve, box, plain]
  | edge | lifeline => rfl
  | methodRow | callArrow =>
    simp only [Interaction.selects, beq_eq_false_iff_ne] at notSelected
    simp [resolve, plain, notSelected]

/-- Where selection hides hover, a selected part has one paint whether it is
hovered over or not. -/
theorem resolve_of_hidden {role : Role} {state other : Interaction}
    (hides : role.selectionHidesHover = true) (selected : state.selects role = true)
    (otherSelected : other.selects role = true) :
    resolve role base other = resolve role base state := by
  cases role with
  | methodRow | callArrow =>
    simp only [Interaction.selects, beq_iff_eq] at selected otherSelected
    simp [resolve, selected, otherSelected]
  | _ => simp [Role.selectionHidesHover] at hides

end Paint

/-! ## Scenes -/

/-- The part is a label or has paint of its own. -/
def Primitive.Solid (primitive : Primitive R) : Prop :=
  primitive.kind.isLabel = true ∨ primitive.base.isVisible = true

/-- The part in its final colours. -/
def Primitive.painted (primitive : Primitive R) (state : Interaction) : DrawItem R :=
  ⟨primitive.role, primitive.kind, .resolve primitive.role primitive.base state⟩

namespace Scene

/-- All parts of a scene are labels or have paint of their own. -/
def Solid (scene : Scene R) : Prop :=
  ∀ primitive ∈ scene.primitives, primitive.Solid

theorem item?_of_solid (solid : primitive.Solid) (state : Interaction) :
    item? state primitive = some (primitive.painted state) := by
  have drawn : (primitive.kind.isLabel ||
      (Paint.resolve primitive.role primitive.base state).isVisible) = true := by
    rcases solid with label | visible
    · rw [label, Bool.true_or]
    · rw [Paint.isVisible_resolve visible, Bool.or_true]
  rw [item?, if_pos drawn]
  rfl

/-- No part of a solid scene is left out. -/
theorem Solid.items_frame {scene : Scene R} (solid : scene.Solid) (camera : Camera R)
    (state : Interaction) :
    (scene.frame camera state).items = scene.primitives.map (Primitive.painted · state) := by
  rw [frame, ← List.filterMap_eq_map]
  exact List.filterMap_congr fun primitive mem => item?_of_solid (solid primitive mem) state

theorem solid_of_mem_label {pool : Pool R} {role : Role} {resource : Option ResourceId}
    {within : Rect R} {align : Align}
    (mem : primitive ∈ label pool role resource within align) : primitive.Solid := by
  unfold label at mem
  split at mem
  · cases mem
  · split at mem
    · cases mem
    · rw [List.mem_singleton] at mem
      subst mem
      exact Or.inl rfl

theorem solid_of_mem_edge {item : Edge} (mem : primitive ∈ edge reg item) : primitive.Solid := by
  unfold edge at mem
  split at mem
  · cases mem
  · dsimp only at mem
    split at mem
    · rcases List.mem_pair.mp mem with rfl | rfl
      · exact Or.inr rfl
      · exact Or.inr rfl
    · rw [List.mem_singleton] at mem
      subst mem
      exact Or.inr rfl

theorem solid_of_mem_standalone {node : StandaloneNode R}
    (mem : primitive ∈ standalone reg node) : primitive.Solid := by
  rcases List.mem_cons.mp mem with rfl | label
  · exact Or.inr rfl
  · exact solid_of_mem_label label

theorem solid_of_mem_classHeader {node : ClassNode R}
    (mem : primitive ∈ classHeader reg node) : primitive.Solid := by
  unfold classHeader at mem
  split at mem
  · cases mem
  · rcases List.mem_cons.mp mem with rfl | label
    · exact Or.inr rfl
    · exact solid_of_mem_label label

theorem solid_of_mem_methodRow {node : ClassNode R} {method : Method}
    (mem : primitive ∈ methodRow reg node method) :
    primitive.Solid := by
  unfold methodRow at mem
  split at mem
  · cases mem
  · rcases List.mem_cons.mp mem with rfl | label
    · exact Or.inr rfl
    · exact solid_of_mem_label label

theorem solid_of_mem_classBox {node : ClassNode R}
    (mem : primitive ∈ classBox reg node) : primitive.Solid := by
  rcases List.mem_cons.mp mem with rfl | inside
  · exact Or.inr rfl
  · rcases List.mem_append.mp inside with header | rows
    · exact solid_of_mem_classHeader header
    · obtain ⟨method, _, row⟩ := List.mem_flatMap.mp rows
      exact solid_of_mem_methodRow row

theorem solid_ofRegistry (reg : Registry R) : (ofRegistry reg).Solid := by
  intro primitive mem
  rcases List.mem_append.mp mem with below | boxes
  · rcases List.mem_append.mp below with edges | nodes
    · obtain ⟨item, _, part⟩ := List.mem_flatMap.mp edges
      exact solid_of_mem_edge part
    · obtain ⟨node, _, part⟩ := List.mem_flatMap.mp nodes
      exact solid_of_mem_standalone part
  · obtain ⟨node, _, part⟩ := List.mem_flatMap.mp boxes
    exact solid_of_mem_classBox part

theorem solid_of_mem_lane {pool : Pool R} {index : Nat} {item : Lane R}
    (mem : primitive ∈ lane pool index item) : primitive.Solid := by
  rcases List.mem_cons.mp mem with rfl | header
  · exact Or.inr rfl
  · rcases List.mem_cons.mp header with rfl | label
    · exact Or.inr rfl
    · exact solid_of_mem_label label

theorem solid_of_mem_callArrow {halfWidth : R} {arrow : CallArrow R}
    (mem : primitive ∈ callArrow halfWidth arrow) : primitive.Solid := by
  simp only [callArrow, List.mem_cons, List.not_mem_nil, or_false] at mem
  rcases mem with rfl | rfl | rfl
  · exact Or.inr rfl
  · exact Or.inr rfl
  · exact Or.inl rfl

theorem solid_ofSequence (view : SequenceView R) (pool : Pool R) : (ofSequence view pool).Solid := by
  intro primitive mem
  rcases List.mem_append.mp mem with lanes | arrows
  · obtain ⟨⟨item, index⟩, _, part⟩ := List.mem_flatMap.mp lanes
    exact solid_of_mem_lane part
  · obtain ⟨arrow, _, part⟩ := List.mem_flatMap.mp arrows
    exact solid_of_mem_callArrow part

end Scene

/-! ## Two frames of one scene -/

/-- Two items show one part, in paint that can differ only if the part is hovered
over or selected in one of two states. -/
structure DrawItem.Recoloured (state other : Interaction) (item recoloured : DrawItem R) :
    Prop where
  role : recoloured.role = item.role
  kind : recoloured.kind = item.kind
  paint : recoloured.paint ≠ item.paint →
    state.hovered = some item.role ∨ other.hovered = some item.role ∨
      state.selects item.role = true ∨ other.selects item.role = true
  /-- Where selection hides hover, it does not matter which part is hovered over. -/
  hidden : item.role.selectionHidesHover = true → state.selects item.role = true →
    other.selects item.role = true → recoloured.paint = item.paint

/-- Two frames differ in nothing but the paint of what two states are about. -/
structure Frame.Recoloured (state other : Interaction) (frame recoloured : Frame R) : Prop where
  camera : recoloured.camera = frame.camera
  viewport : recoloured.viewport = frame.viewport
  background : recoloured.background = frame.background
  items : List.Forall₂ (DrawItem.Recoloured state other) frame.items recoloured.items

namespace Scene

/-- The frames of a scene show all its parts, and hover and selection only recolour
them. -/
structure OnlyRecolours (scene : Scene R) : Prop where
  parts : ∀ camera state, (scene.frame camera state).items.map (fun item => (item.role, item.kind)) =
    scene.primitives.map fun primitive => (primitive.role, primitive.kind)
  frames : ∀ camera state other,
    Frame.Recoloured state other (scene.frame camera state) (scene.frame camera other)

theorem recoloured_painted (primitive : Primitive R) (state other : Interaction) :
    DrawItem.Recoloured state other (primitive.painted state) (primitive.painted other) := by
  refine ⟨rfl, rfl, ?_, Paint.resolve_of_hidden⟩
  intro differs
  by_contra plain
  simp only [not_or, Bool.not_eq_true] at plain
  obtain ⟨notHovered, otherNotHovered, notSelected, otherNotSelected⟩ := plain
  have own : (primitive.painted state).paint = primitive.base :=
    Paint.resolve_of_plain notHovered notSelected
  have otherOwn : (primitive.painted other).paint = primitive.base :=
    Paint.resolve_of_plain otherNotHovered otherNotSelected
  exact differs (otherOwn.trans own.symm)

theorem Solid.onlyRecolours {scene : Scene R} (solid : scene.Solid) : scene.OnlyRecolours := by
  constructor
  · intro camera state
    rw [solid.items_frame, List.map_map]
    rfl
  · intro camera state other
    refine ⟨rfl, rfl, rfl, ?_⟩
    rw [solid.items_frame, solid.items_frame, List.forall₂_map_left_iff,
      List.forall₂_map_right_iff, List.forall₂_same]
    exact fun primitive _ => recoloured_painted primitive state other

/-- Hover and selection only recolour the map and every call diagram. -/
theorem frames_only_recoloured :
    (∀ registry : Registry R, (ofRegistry registry).OnlyRecolours) ∧
      ∀ (view : SequenceView R) (pool : Pool R), (ofSequence view pool).OnlyRecolours :=
  ⟨fun registry => (solid_ofRegistry registry).onlyRecolours,
    fun view pool => (solid_ofSequence view pool).onlyRecolours⟩

end Scene

end CodeAtlas
