import CodeAtlas.Proofs.Registry.Shown
import CodeAtlas.Proofs.Sequence
import CodeAtlas.Scene

/-!
# What a scene is made of

Every part of a scene stands for something that is on the map or in the call
diagram, and every label that it shows is live.
-/

namespace CodeAtlas

variable {R : Type} [Scalar R] {reg : Registry R} {primitive : Primitive R}

namespace Role

/-- The role stands for something on the map. -/
def OnMap (reg : Registry R) : Role → Prop
  | .classBackground id | .classHeader id => id ∈ reg.classes.keys
  | .methodRow classId methodId => reg.Shows classId methodId
  | .standalone id => id ∈ reg.standalone.keys
  | .edge id => id ∈ reg.edges.keys
  | .callArrow _ | .laneHeader _ _ | .lifeline _ => False

/-- The role stands for something in a call diagram. -/
def InSequence (view : SequenceView R) : Role → Prop
  | .laneHeader _ classId => classId ∈ view.lanes.map Lane.classId
  | .lifeline lane => lane < view.lanes.length
  | .callArrow index => ∃ arrow ∈ view.arrows, arrow.index = index
  | _ => False

end Role

/-- If the part is a label, it is a live one. -/
def Primitive.Live (pool : Pool R) (primitive : Primitive R) : Prop :=
  ∀ id area, primitive.kind = .label id area → (pool.label? id).isSome = true

namespace Scene

/-! ## The map -/

theorem mem_label {pool : Pool R} {role : Role} {resource : Option ResourceId} {within : Rect R}
    {align : Align} (mem : primitive ∈ label pool role resource within align) :
    primitive.role = role ∧ primitive.Live pool := by
  unfold label at mem
  cases resource with
  | none => cases mem
  | some id =>
    cases live : pool.label? id with
    | none => simp [live] at mem
    | some bitmap =>
      simp only [live, List.mem_singleton] at mem
      subst mem
      refine ⟨rfl, ?_⟩
      intro shown area kindEq
      cases kindEq
      simp [live]

theorem mem_edge {item : Edge} (mem : primitive ∈ edge reg item) :
    primitive.role = .edge item.id ∧ primitive.Live reg.pool := by
  unfold edge at mem
  cases path : reg.edgePath item with
  | none => simp [path] at mem
  | some points =>
    rw [path] at mem
    dsimp only at mem
    split at mem
    · rcases List.mem_pair.mp mem with rfl | rfl
      · exact ⟨rfl, fun _ _ kindEq => by cases kindEq⟩
      · exact ⟨rfl, fun _ _ kindEq => by cases kindEq⟩
    · rw [List.mem_singleton] at mem
      subst mem
      exact ⟨rfl, fun _ _ kindEq => by cases kindEq⟩

theorem mem_standalone {node : StandaloneNode R} (mem : primitive ∈ standalone reg node) :
    primitive.role = .standalone node.id ∧ primitive.Live reg.pool := by
  rcases List.mem_cons.mp mem with rfl | label
  · exact ⟨rfl, fun _ _ kindEq => by cases kindEq⟩
  · exact mem_label label

theorem mem_classHeader {node : ClassNode R} (mem : primitive ∈ classHeader reg node) :
    primitive.role = .classHeader node.id ∧ primitive.Live reg.pool := by
  unfold classHeader at mem
  cases header : reg.headerRect node.id with
  | none => simp [header] at mem
  | some rect =>
    rw [header] at mem
    rcases List.mem_cons.mp mem with rfl | label
    · exact ⟨rfl, fun _ _ kindEq => by cases kindEq⟩
    · exact mem_label label

theorem mem_methodRow {node : ClassNode R} {method : Method}
    (mem : primitive ∈ methodRow reg node method) :
    primitive.role = .methodRow node.id method.id ∧ primitive.Live reg.pool := by
  unfold methodRow at mem
  cases row : reg.methodRowRect method.id with
  | none => simp [row] at mem
  | some rect =>
    rw [row] at mem
    rcases List.mem_cons.mp mem with rfl | label
    · exact ⟨rfl, fun _ _ kindEq => by cases kindEq⟩
    · exact mem_label label

omit [Scalar R] in
/-- The visible methods of a class on a coherent map are rows that are shown. -/
theorem shows_of_visibleMethods (coherent : reg.Coherent) {classId : NodeId} {method : Method}
    (mem : method ∈ reg.visibleMethods classId) :
    reg.Shows classId method.id := by
  obtain ⟨listed, visible⟩ := List.mem_filter.mp mem
  obtain ⟨methodMem, ownerId⟩ := coherent.mem_methodsOf_iff.mp listed
  exact ⟨method, methodMem, rfl, ownerId, visible⟩

/-- Every part of the map's scene stands for something on the map and shows no
dead label. -/
theorem mem_ofRegistry (coherent : reg.Coherent) (mem : primitive ∈ (ofRegistry reg).primitives) :
    primitive.role.OnMap reg ∧ primitive.Live reg.pool := by
  rcases List.mem_append.mp mem with below | boxes
  · rcases List.mem_append.mp below with lines | standaloneBoxes
    · obtain ⟨item, itemMem, drawn⟩ := List.mem_flatMap.mp lines
      obtain ⟨role, live⟩ := mem_edge drawn
      rw [role]
      exact ⟨Store.key_mem_keys itemMem, live⟩
    · obtain ⟨node, nodeMem, drawn⟩ := List.mem_flatMap.mp standaloneBoxes
      obtain ⟨role, live⟩ := mem_standalone drawn
      rw [role]
      exact ⟨Store.key_mem_keys nodeMem, live⟩
  · obtain ⟨node, nodeMem, drawn⟩ := List.mem_flatMap.mp boxes
    rcases List.mem_cons.mp drawn with rfl | inner
    · exact ⟨Store.key_mem_keys nodeMem, fun _ _ kindEq => by cases kindEq⟩
    · rcases List.mem_append.mp inner with header | rows
      · obtain ⟨role, live⟩ := mem_classHeader header
        rw [role]
        exact ⟨Store.key_mem_keys nodeMem, live⟩
      · obtain ⟨method, methodMem, drawnRow⟩ := List.mem_flatMap.mp rows
        obtain ⟨role, live⟩ := mem_methodRow drawnRow
        rw [role]
        exact ⟨shows_of_visibleMethods coherent methodMem, live⟩

/-! ## Call diagrams -/

/-- Every part of a call diagram's scene stands for a lane or a call, and its
labels are live if those of the diagram are. -/
theorem mem_ofSequence {view : SequenceView R} {pool : Pool R}
    (mem : primitive ∈ (ofSequence view pool).primitives) :
    primitive.role.InSequence view ∧
      ((∀ id ∈ view.resources, (pool.label? id).isSome = true) → primitive.Live pool) := by
  rcases List.mem_append.mp mem with lanes | arrows
  · obtain ⟨⟨item, index⟩, itemMem, drawn⟩ := List.mem_flatMap.mp lanes
    have itemAt := List.mem_zipIdx_iff_getElem?.mp itemMem
    have laneMem : item ∈ view.lanes := List.mem_of_getElem? itemAt
    rcases List.mem_cons.mp drawn with rfl | header
    · exact ⟨(List.getElem?_eq_some_iff.mp itemAt).1, fun _ _ _ kindEq => by cases kindEq⟩
    · rcases List.mem_cons.mp header with rfl | label
      · exact ⟨List.mem_map.mpr ⟨item, laneMem, rfl⟩, fun _ _ _ kindEq => by cases kindEq⟩
      · obtain ⟨role, labelLive⟩ := mem_label label
        rw [role]
        exact ⟨List.mem_map.mpr ⟨item, laneMem, rfl⟩, fun _ => labelLive⟩
  · obtain ⟨arrow, arrowMem, drawn⟩ := List.mem_flatMap.mp arrows
    rcases List.mem_cons.mp drawn with rfl | rest
    · exact ⟨⟨arrow, arrowMem, rfl⟩, fun _ _ _ kindEq => by cases kindEq⟩
    · rcases List.mem_pair.mp rest with rfl | rfl
      · exact ⟨⟨arrow, arrowMem, rfl⟩, fun _ _ _ kindEq => by cases kindEq⟩
      · refine ⟨⟨arrow, arrowMem, rfl⟩, ?_⟩
        intro live id area kindEq
        cases kindEq
        apply live
        exact List.mem_append_right _ (List.mem_map.mpr ⟨arrow, arrowMem, rfl⟩)

/-- A diagram with lanes shows a lifeline, which no map does. -/
theorem exists_lifeline_ofSequence {view : SequenceView R} (lanes : view.lanes ≠ [])
    (pool : Pool R) :
    ∃ primitive ∈ (ofSequence view pool).primitives, primitive.role = .lifeline 0 := by
  obtain ⟨first, rest, lanesEq⟩ := List.exists_cons_of_ne_nil lanes
  have firstMem : (first, 0) ∈ view.lanes.zipIdx := by
    rw [List.mem_zipIdx_iff_getElem?, lanesEq]
    rfl
  exact ⟨_, List.mem_append_left _ (List.mem_flatMap.mpr ⟨_, firstMem, List.mem_cons_self⟩), rfl⟩

/-! ## Picking and painting -/

omit [Scalar R] in
theorem exists_primitive_of_hitRegions {scene : Scene R} {region : HitRegion R}
    (mem : region ∈ scene.hitRegions) :
    ∃ primitive ∈ scene.primitives, primitive.role = region.role := by
  obtain ⟨primitive, primitiveMem, picked⟩ := List.mem_filterMap.mp mem
  obtain ⟨_, _, rfl⟩ := Option.map_eq_some_iff.mp picked
  exact ⟨primitive, primitiveMem, rfl⟩

/-- A frame of live parts shows live labels. -/
theorem labels_live_of_primitives {scene : Scene R} {pool : Pool R}
    (live : ∀ primitive ∈ scene.primitives, primitive.Live pool) (camera : Camera R)
    (state : Interaction) :
    ∀ id ∈ (scene.frame camera state).labels, (pool.label? id).isSome = true := by
  intro id mem
  obtain ⟨item, itemMem, shown⟩ := List.mem_filterMap.mp mem
  obtain ⟨primitive, primitiveMem, painted⟩ := List.mem_filterMap.mp itemMem
  have kindEq : item.kind = primitive.kind := by
    unfold item? at painted
    dsimp only at painted
    split at painted
    · cases painted
      rfl
    · cases painted
  rw [kindEq] at shown
  cases kind : primitive.kind with
  | label resource area =>
    rw [kind] at shown
    cases shown
    exact live primitive primitiveMem id area kind
  | _ =>
    rw [kind] at shown
    cases shown

end Scene

namespace HitTester

/-- A ray meets one of the regions. -/
theorem exists_region_of_cast {tester : HitTester R} {ray : Ray R} {hit : Hit R}
    (met : tester.cast ray = some hit) : ∃ region ∈ tester.regions, region.role = hit.role := by
  have best : ∀ entry ∈ tester.regions.foldl (closer ray) none, entry.2 ∈ tester.regions := by
    apply List.foldlRecOn (motive := fun (best : Option (R × HitRegion R)) =>
      ∀ entry ∈ best, entry.2 ∈ tester.regions)
    · intro entry mem
      cases mem
    · intro best held region regionMem entry chosen
      unfold closer at chosen
      split at chosen
      · exact held entry chosen
      · cases chosen
        exact regionMem
      · split at chosen
        · cases chosen
          exact regionMem
        · exact held entry chosen
  obtain ⟨entry, chosen, rfl⟩ := Option.map_eq_some_iff.mp met
  exact ⟨entry.2, best entry chosen, rfl⟩

end HitTester

end CodeAtlas
