import CodeAtlas.Proofs.Lanes
import CodeAtlas.Proofs.Picking

/-!
# Every visible thing is picked in one place

Regions are left out where a box, a row or a header is not found, and a part that
was drawn twice could be picked twice.  On a reachable map neither happens: what
is visible has one region, and every region is that of something visible.
-/

namespace CodeAtlas

variable {R : Type} [Scalar R] {reg : Registry R} {view : SequenceView R} {rootClass : NodeId}

/-! ## Roles on the map -/

/-- The roles that a map offers: its standalone boxes, its classes with their
headers, and the visible methods of each class. -/
inductive Registry.Offers (reg : Registry R) : Role → Prop where
  | standalone {node : StandaloneNode R} (mem : node ∈ reg.standalone.items) :
      Offers reg (.standalone node.id)
  | background {node : ClassNode R} (mem : node ∈ reg.classes.items) :
      Offers reg (.classBackground node.id)
  | header {node : ClassNode R} (mem : node ∈ reg.classes.items) :
      Offers reg (.classHeader node.id)
  | row {node : ClassNode R} {method : Method} (mem : node ∈ reg.classes.items)
      (known : method ∈ reg.methods.items) (owned : method.classId = node.id)
      (visible : method.visible = true) : Offers reg (.methodRow node.id method.id)

namespace Scene

omit [Scalar R] in
@[simp]
theorem hitRegions_cons_unpicked (role : Role) (kind : DrawKind R) (base : Paint R)
    (rest : List (Primitive R)) :
    hitRegions ⟨⟨role, kind, base, none⟩ :: rest⟩ = hitRegions ⟨rest⟩ :=
  rfl

/-- The roles of the regions of a scene, in drawing order. -/
def pickRoles (scene : Scene R) : List Role :=
  scene.hitRegions.map HitRegion.role

/-- The regions of a scene have different roles that react to the pointer, and
these are the roles that are shown.  So each of them has a single region. -/
structure PicksOnce (scene : Scene R) (shown : Role → Prop) : Prop where
  distinct : scene.pickRoles.Nodup
  roles : ∀ role, role ∈ scene.pickRoles ↔ shown role
  interactive : ∀ role ∈ scene.pickRoles, role.isInteractive = true
  single : ∀ role, shown role → ∃! region, region ∈ scene.hitRegions ∧ region.role = role

omit [Scalar R] in
theorem picksOnce_of_nodup {scene : Scene R} {shown : Role → Prop}
    (distinct : scene.pickRoles.Nodup) (roles : ∀ role, role ∈ scene.pickRoles ↔ shown role)
    (interactive : ∀ role, shown role → role.isInteractive = true) : scene.PicksOnce shown := by
  refine ⟨distinct, roles, fun role mem => interactive role ((roles role).mp mem), ?_⟩
  intro role isShown
  rcases List.mem_map.mp ((roles role).mpr isShown) with ⟨region, mem, rfl⟩
  refine ⟨region, ⟨mem, rfl⟩, ?_⟩
  rintro other ⟨otherMem, same⟩
  exact List.inj_on_of_nodup_map distinct otherMem mem same

end Scene

namespace Registry

/-- The roles of a class from its box to its last row. -/
def classRoles (reg : Registry R) (node : ClassNode R) : List Role :=
  .classBackground node.id :: .classHeader node.id ::
    (reg.visibleMethods node.id).map fun method => .methodRow node.id method.id

theorem Coherent.map_role_classRegions (coherent : reg.Coherent) {node : ClassNode R}
    (mem : node ∈ reg.classes.items) :
    (Scene.classRegions reg node).map HitRegion.role = reg.classRoles node := by
  have rows : ((reg.visibleMethods node.id).filterMap fun method =>
        ((reg.methodRowRect method.id).map fun row =>
          (⟨.methodRow node.id method.id, .rect (Scene.insetRow row), Scene.rowElevation⟩ :
            HitRegion R)).map HitRegion.role) =
      (reg.visibleMethods node.id).map fun method => Role.methodRow node.id method.id := by
    rw [← List.filterMap_eq_map]
    apply List.filterMap_congr
    intro method visible
    rcases coherent.exists_row mem visible with ⟨index, _, stands⟩
    rw [stands]
    rfl
  rw [Scene.classRegions, coherent.headerRect_eq mem, List.map_append, List.map_filterMap, rows]
  rfl

/-- No box, no header and no visible row is left out. -/
theorem Coherent.pickRoles_ofRegistry (coherent : reg.Coherent) :
    (Scene.ofRegistry reg).pickRoles =
      (reg.standalone.items.map fun node => Role.standalone node.id) ++
        reg.classes.items.flatMap reg.classRoles := by
  rw [Scene.pickRoles, Scene.hitRegions_ofRegistry, List.map_append, List.map_map, List.map_flatMap]
  congr 1
  exact List.flatMap_congr fun node mem => coherent.map_role_classRegions mem

section
omit [Scalar R]

theorem Coherent.nodup_classRoles (coherent : reg.Coherent) {node : ClassNode R}
    (mem : node ∈ reg.classes.items) :
    (reg.classRoles node).Nodup := by
  have ids : ((reg.visibleMethods node.id).map Method.id).Nodup := by
    have rows := coherent.map_id_rows mem
    have found : reg.classes.get? node.id = some node :=
      Store.get?_of_mem coherent.classKeys mem
    have listed : (reg.methodsOf node.id).map Method.id = node.methods := by
      rw [methodsOf, found]
      exact rows
    have sublist : ((reg.visibleMethods node.id).map Method.id).Sublist node.methods :=
      listed ▸ List.filter_sublist.map Method.id
    exact (coherent.rows node mem).sublist sublist
  have rows : ((reg.visibleMethods node.id).map fun method =>
      Role.methodRow node.id method.id).Nodup := by
    rw [← Function.comp_def (Role.methodRow node.id) Method.id, ← List.map_map]
    exact ids.map fun _ _ same => (Role.methodRow.inj same).2
  simpa [classRoles] using rows

/-- The roles of different classes are different. -/
theorem disjoint_classRoles {node other : ClassNode R} (different : node.id ≠ other.id) :
    (reg.classRoles node).Disjoint (reg.classRoles other) := by
  intro role
  simp only [classRoles, List.mem_cons, List.mem_map]
  rintro (rfl | rfl | ⟨method, _, rfl⟩) <;> simp [different, different.symm]

theorem Coherent.nodup_flatMap_classRoles (coherent : reg.Coherent) :
    (reg.classes.items.flatMap reg.classRoles).Nodup := by
  rw [List.nodup_flatMap]
  constructor
  · intro node mem
    exact coherent.nodup_classRoles mem
  · have distinct : reg.classes.items.Pairwise fun node other => node.id ≠ other.id :=
      List.pairwise_map.mp coherent.classKeys
    exact distinct.imp disjoint_classRoles

end

theorem Coherent.nodup_pickRoles (coherent : reg.Coherent) :
    (Scene.ofRegistry reg).pickRoles.Nodup := by
  rw [coherent.pickRoles_ofRegistry, List.nodup_append']
  refine ⟨?_, coherent.nodup_flatMap_classRoles, ?_⟩
  · have keys : (reg.standalone.items.map StandaloneNode.id).Nodup := coherent.standaloneKeys
    rw [← Function.comp_def Role.standalone StandaloneNode.id, ← List.map_map]
    exact keys.map fun _ _ same => Role.standalone.inj same
  · intro role
    simp only [List.mem_map, List.mem_flatMap, classRoles, List.mem_cons]
    rintro ⟨box, _, rfl⟩ ⟨node, _, impossible⟩
    simp at impossible

theorem Coherent.mem_pickRoles_iff (coherent : reg.Coherent)
    {role : Role} : role ∈ (Scene.ofRegistry reg).pickRoles ↔ reg.Offers role := by
  simp only [coherent.pickRoles_ofRegistry, List.mem_append, List.mem_map, List.mem_flatMap,
    classRoles, List.mem_cons, visibleMethods, List.mem_filter, coherent.mem_methodsOf_iff]
  constructor
  · rintro (⟨node, mem, rfl⟩ | ⟨node, mem, rfl | rfl | ⟨method, ⟨⟨known, owned⟩, visible⟩, rfl⟩⟩)
    · exact .standalone mem
    · exact .background mem
    · exact .header mem
    · exact .row mem known owned visible
  · intro offers
    cases offers with
    | standalone mem => exact Or.inl ⟨_, mem, rfl⟩
    | background mem => exact Or.inr ⟨_, mem, Or.inl rfl⟩
    | header mem => exact Or.inr ⟨_, mem, Or.inr (Or.inl rfl)⟩
    | row mem known owned visible =>
      exact Or.inr ⟨_, mem, Or.inr (Or.inr ⟨_, ⟨⟨known, owned⟩, visible⟩, rfl⟩)⟩

omit [Scalar R] in
theorem Offers.isInteractive {role : Role} (offers : reg.Offers role) :
    role.isInteractive = true := by
  cases offers <;> rfl

end Registry

/-! ## Roles on a call diagram -/

namespace SequenceView

/-- The roles that a call diagram offers: the headers of its lanes and the arrows of
its calls, each by its number. -/
inductive Offers (view : SequenceView R) : Role → Prop where
  | lane {index : Nat} {lane : Lane R} (listed : view.lanes[index]? = some lane) :
      Offers view (.laneHeader index lane.classId)
  | call {index : Nat} {call : Call} (listed : view.calls[index]? = some call) :
      Offers view (.callArrow index)

theorem pickRoles_lane (pool : Pool R) (index : Nat) (lane : Lane R) :
    (Scene.hitRegions ⟨Scene.lane pool index lane⟩).map HitRegion.role =
      [.laneHeader index lane.classId] := by
  simp [Scene.lane]

theorem pickRoles_ofSequence (view : SequenceView R) (pool : Pool R) :
    (Scene.ofSequence view pool).pickRoles =
      (view.lanes.zipIdx.map fun (lane, index) => Role.laneHeader index lane.classId) ++
        (view.arrows.map CallArrow.index).map Role.callArrow := by
  rw [Scene.pickRoles, Scene.ofSequence, Scene.hitRegions_append, List.map_append,
    Scene.hitRegions_flatMap, Scene.hitRegions_flatMap, List.map_flatMap, List.map_flatMap,
    List.map_eq_flatMap, List.map_map, List.map_eq_flatMap]
  simp only [pickRoles_lane]
  rfl

section

variable (indexed : view.WellIndexed rootClass)
include indexed

omit [Scalar R] in
/-- Arrows go by the numbers of their calls. -/
theorem WellIndexed.map_index_arrows :
    view.arrows.map CallArrow.index = List.range view.calls.length := by
  apply List.ext_getElem?
  intro index
  rw [List.getElem?_map]
  by_cases inside : index < view.calls.length
  · rcases indexed.arrows index _ (List.getElem?_eq_getElem inside) with ⟨arrow, listed, joins⟩
    rw [listed, List.getElem?_range inside, Option.map_some, joins.index]
  · rw [List.getElem?_eq_none (by simpa [indexed.count] using inside), List.getElem?_eq_none
      (by simpa using inside)]
    rfl

theorem WellIndexed.pickRoles (pool : Pool R) :
    (Scene.ofSequence view pool).pickRoles =
      (view.lanes.zipIdx.map fun (lane, index) => Role.laneHeader index lane.classId) ++
        (List.range view.calls.length).map Role.callArrow := by
  rw [pickRoles_ofSequence, indexed.map_index_arrows]

theorem WellIndexed.nodup_pickRoles (pool : Pool R) :
    (Scene.ofSequence view pool).pickRoles.Nodup := by
  rw [indexed.pickRoles, List.nodup_append']
  refine ⟨?_, ?_, ?_⟩
  · -- Lanes differ in their numbers already.
    have numbers : (view.lanes.zipIdx.map Prod.snd).Nodup := by
      rw [List.zipIdx_map_snd]
      exact List.nodup_range'
    exact (List.pairwise_map.mp numbers).map _ fun _ _ different same =>
      different (Role.laneHeader.inj same).1
  · exact List.nodup_range.map fun _ _ same => Role.callArrow.inj same
  · intro role
    simp only [List.mem_map]
    rintro ⟨item, _, rfl⟩ ⟨index, _, impossible⟩
    cases impossible

theorem WellIndexed.mem_pickRoles_iff (pool : Pool R) {role : Role} :
    role ∈ (Scene.ofSequence view pool).pickRoles ↔ view.Offers role := by
  simp only [indexed.pickRoles, List.mem_append, List.mem_map, Prod.exists,
    List.mem_zipIdx_iff_getElem?, List.mem_range]
  constructor
  · rintro (⟨lane, index, listed, rfl⟩ | ⟨index, inside, rfl⟩)
    · exact .lane listed
    · exact .call (List.getElem?_eq_getElem inside)
  · intro offers
    cases offers with
    | lane listed => exact Or.inl ⟨_, _, listed, rfl⟩
    | call listed => exact Or.inr ⟨_, (List.getElem?_eq_some_iff.mp listed).1, rfl⟩

end

omit [Scalar R] in
theorem Offers.isInteractive {role : Role} (offers : view.Offers role) :
    role.isInteractive = true := by
  cases offers <;> rfl

end SequenceView

/-! ## Both diagrams -/

/-- **Every visible thing is picked in one place.**  On every reachable map each
standalone box, class and class header and each visible method of a class has one
region; on every call diagram that is built from it each lane and each call has
one.  No region is that of anything else. -/
theorem Registry.visible_picked_once {registry : Registry R} {drawn : Option (SequenceView R)}
    (reachable : registry.Reachable drawn) :
    (Scene.ofRegistry registry).PicksOnce registry.Offers ∧
    ∀ (root : NodeId) (settings : SequenceSettings R) (interaction : InteractionSettings R)
      (view : SequenceView R) (lending : Registry R),
      SequenceView.build registry root settings interaction = some (view, lending) →
      ∀ pool, (Scene.ofSequence view pool).PicksOnce view.Offers := by
  have coherent := reachable.coherent
  constructor
  · exact Scene.picksOnce_of_nodup coherent.nodup_pickRoles (fun _ => coherent.mem_pickRoles_iff)
      fun _ => Offers.isInteractive
  · intro root settings interaction view lending built pool
    rcases SequenceView.build_cases registry root settings interaction with
      ⟨_, failed⟩ | ⟨method, _, _, found, _⟩
    · rw [failed] at built
      cases built
    · have indexed := SequenceView.wellIndexed_of_build found built
      exact Scene.picksOnce_of_nodup (indexed.nodup_pickRoles pool)
        (fun _ => indexed.mem_pickRoles_iff pool) fun _ => SequenceView.Offers.isInteractive

/-- Two classes that call each other, on the map and as a call diagram. -/
theorem Registry.visible_picked_once_sample :
    let registry := SequenceView.crossCalls
    registry.Reachable none ∧
    Role.classHeader "bank" ∈ (Scene.ofRegistry registry).pickRoles ∧
    (Scene.ofRegistry registry).PicksOnce registry.Offers ∧
    ∃ view lending, SequenceView.build registry "order" .standard .standard =
        some (view, lending) ∧
      (Scene.ofSequence view lending.pool).PicksOnce view.Offers := by
  intro registry
  have reachable : registry.Reachable none :=
    (Registry.Reachable.create _ _ _).operate (.addData _ _) (Or.inl rfl)
  have start := Registry.coherent_create Engine.sampleStart.registry.metrics
    Engine.sampleStart.registry.defaultToggles Engine.sampleStart.registry.text
  rcases start.keys_addData rfl _ _ with ⟨classes, methods⟩
  have bank : "bank" ∈ registry.classes.keys := classes ▸ by decide
  have order : "order" ∈ registry.methods.keys := methods ▸ by decide
  rcases visible_picked_once reachable with ⟨onMap, onCalls⟩
  rcases SequenceView.build_cases registry "order" .standard .standard with
    ⟨unknown, _⟩ | ⟨_, view, pool, _, built, _⟩
  · exact absurd order unknown
  · rcases Store.mem_keys_iff.mp bank with ⟨node, mem, nodeId⟩
    have shown : registry.Offers (.classHeader "bank") := nodeId ▸ .header mem
    exact ⟨reachable, (onMap.roles _).mpr shown, onMap, view, _, built,
      onCalls "order" .standard .standard view _ built _⟩

end CodeAtlas
