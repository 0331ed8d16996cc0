import CodeAtlas.Proofs.Registry.Deletion

/-!
# A class set apart

Setting a class apart leaves the class and its methods as they are, and nothing
else: no other node, no edge, and no resource but theirs and what is lent.  Asked
for what is no class, it does nothing.
-/

namespace CodeAtlas

variable {R : Type} [Scalar R]

omit [Scalar R] in
theorem Pool.Holds.contains_iff {pool : Pool R} {slots : List Slot} (holds : pool.Holds slots)
    (number : ResourceId) : pool.contains number = true ↔ number ∈ slots.map Prod.fst := by
  rw [Pool.contains, List.mem_map]
  constructor
  · intro live
    obtain ⟨resource, found⟩ := Option.isSome_iff_exists.mp live
    exact ⟨_, holds.get?_iff.mp (congrArg (Option.map Resource.kind) found), rfl⟩
  · rintro ⟨slot, mem, rfl⟩
    rw [← Option.isSome_map, holds.get?_iff.mpr mem, Option.isSome_some]

namespace Registry

/-- What is left of a map when one of its classes is set apart, while some slots
are lent. -/
structure SetsApart (reg : Registry R) (node : ClassNode R) (lent : List Slot)
    (left : Registry R) : Prop where
  frame : (left.perspective, left.setup) = (reg.perspective, reg.setup)
  classes : left.classes.items = [node]
  methods : left.methods.items = reg.methods.items.filter fun row => row.classId == node.id
  rows : left.methodsOf node.id = reg.methodsOf node.id
  standalone : left.standalone.items = []
  edges : left.edges.items = []
  live : ∀ number, left.pool.contains number = true ↔
    number ∈ (reg.belongings (.classBox node) ++ lent).map Prod.fst
  contents : ∀ number, left.pool.contains number = true →
    left.pool.get? number = reg.pool.get? number

section Apart

variable {reg : Registry R} {node : ClassNode R}

/-- The rows of the class are looked up as before. -/
theorem Coherent.methodsOf_focusOnClass (coherent : reg.Coherent) (mem : node ∈ reg.classes.items) :
    (reg.focusOnClass node.id).2.methodsOf node.id = reg.methodsOf node.id := by
  have left := coherent.focusOnClass node.id
  have known : node.id ∈ reg.classes.keys := Store.key_mem_keys mem
  have found : reg.classes.get? node.id = some node := Store.get?_of_mem coherent.classKeys mem
  have stillFound : (reg.focusOnClass node.id).2.classes.get? node.id = some node := by
    refine Store.get?_of_mem left.classKeys ?_
    rw [coherent.classes_focusOnClass mem]
    exact List.mem_singleton_self node
  rw [methodsOf, methodsOf, stillFound, found]
  apply List.filterMap_congr
  intro id listed
  obtain ⟨row, rowMem, rfl, ownerId⟩ := coherent.member node mem id listed
  have kept : row ∈ (reg.focusOnClass node.id).2.methods.items := by
    rw [coherent.methods_focusOnClass known, List.mem_filter, beq_iff_eq]
    exact ⟨rowMem, ownerId⟩
  rw [show row.id = Keyed.key row from rfl, Store.get?_of_mem left.methodKeys kept,
    Store.get?_of_mem coherent.methodKeys rowMem]

/-- The slots that are left are those of the class and of its methods. -/
theorem Coherent.mem_slots_focusOnClass (coherent : reg.Coherent)
    (mem : node ∈ reg.classes.items) {slot : Slot} :
    slot ∈ (reg.focusOnClass node.id).2.slots ↔
      slot ∈ reg.belongings (.classBox node) := by
  have known : node.id ∈ reg.classes.keys := Store.key_mem_keys mem
  obtain ⟨sheds, noEdges⟩ := coherent.sheds_focusOnClass known
  simp only [slots, belongings, coherent.classes_focusOnClass mem,
    coherent.methods_focusOnClass known, sheds.standalone, coherent.standalone_eq_nil known,
    noEdges, List.mem_append, List.mem_flatMap, List.mem_filter, beq_iff_eq,
    coherent.mem_methodsOf_iff]
  simp

/-- What stays in the pool is what it was. -/
theorem Reachable.get?_pool_focusOnClass {drawn : Option (SequenceView R)}
    (reachable : reg.Reachable drawn) (mem : node ∈ reg.classes.items)
    {number : ResourceId} {resource : Resource R}
    (live : (reg.focusOnClass node.id).2.pool.get? number = some resource) :
    reg.pool.get? number = some resource := by
  have coherent := reachable.coherent
  have known : node.id ∈ reg.classes.keys := Store.key_mem_keys mem
  have named : reg.entity? node.id = some (.classBox node) := by
    rw [entity?, show node.id = Keyed.key node from rfl, Store.get?_of_mem coherent.classKeys mem]
  have balanced := reachable.balanced.focusOnClass coherent node.id
  have held := Pool.Holds.get?_iff balanced |>.mp (congrArg (Option.map Resource.kind) live)
  have given : number ≤ reg.pool.lastId := by
    apply reachable.balanced.bound (number, resource.kind)
    rw [List.mem_append, coherent.mem_slots_focusOnClass mem] at held
    exact List.mem_append.mpr (held.imp_left fun own =>
      mem_slots_of_released named (List.mem_append_left _ own))
  obtain ⟨old, before, _, same⟩ :=
    (coherent.sheds_focusOnClass known).1.pool.keeps.kept number given resource live
  rw [before, same List.not_mem_nil]

end Apart

/-- On every reachable map, setting a class apart leaves exactly the class with its
methods, unchanged, and in the pool exactly their resources, besides what is lent to
a call diagram; and asked for what is no class, it says so and changes nothing. -/
theorem focusOnClass_exact {registry : Registry R} {drawn : Option (SequenceView R)}
    (reachable : registry.Reachable drawn) (classId : NodeId) :
    (∀ node, registry.classes.get? classId = some node →
      (registry.focusOnClass classId).1 = true ∧
        registry.SetsApart node (lentTo drawn) (registry.focusOnClass classId).2) ∧
    (classId ∉ registry.classes.keys → registry.focusOnClass classId = (false, registry)) := by
  constructor
  · intro node found
    have coherent := reachable.coherent
    have mem := Store.mem_of_get? found
    have known := Store.mem_keys_of_get? found
    obtain rfl : node.id = classId := Store.key_of_get? found
    obtain ⟨sheds, noEdges⟩ := coherent.sheds_focusOnClass known
    have balanced := reachable.balanced.focusOnClass coherent node.id
    refine ⟨by rw [focusOnClass, if_pos (Store.contains_iff.mpr known)], ?_⟩
    constructor
    · exact sheds.frame
    · exact coherent.classes_focusOnClass mem
    · exact coherent.methods_focusOnClass known
    · exact coherent.methodsOf_focusOnClass mem
    · rw [sheds.standalone, coherent.standalone_eq_nil known]
    · exact noEdges
    · intro number
      rw [Pool.Holds.contains_iff balanced]
      simp only [List.mem_map, List.mem_append, coherent.mem_slots_focusOnClass mem]
    · intro number live
      obtain ⟨resource, after⟩ := Option.isSome_iff_exists.mp live
      rw [after, reachable.get?_pool_focusOnClass mem after]
  · intro unknown
    rw [focusOnClass, if_neg (mt Store.contains_iff.mp unknown)]

/-- The class that is set apart has a method with the id of another class. -/
theorem focusOnClass_exact_sample :
    let registry := Engine.sampleStart.registry.apply (.addData clashNodes clashClaims)
    registry.Doubled "x" ∧
    (∃ node, registry.classes.get? "owner" = some node ∧
      (registry.focusOnClass "owner").1 = true ∧
        registry.SetsApart node [] (registry.focusOnClass "owner").2) ∧
    registry.focusOnClass "nobody" = (false, registry) := by
  intro registry
  have start := coherent_create Engine.sampleStart.registry.metrics
    Engine.sampleStart.registry.defaultToggles Engine.sampleStart.registry.text
  obtain ⟨classes, methods⟩ := start.keys_addData rfl clashNodes clashClaims
  have classKeys : registry.classes.keys = ["x", "owner"] := classes.trans (by decide)
  have methodKeys : registry.methods.keys = ["x"] := methods.trans (by decide)
  have reachable : registry.Reachable none :=
    (Reachable.create _ _ _).operate (.addData clashNodes clashClaims) (Or.inl rfl)
  have stored : "owner" ∈ registry.classes.keys := by simp [classKeys]
  obtain ⟨node, found⟩ := Store.exists_get? stored
  refine ⟨⟨by simp [classKeys], by simp [methodKeys]⟩, ⟨node, found, ?_⟩, ?_⟩
  · exact (focusOnClass_exact reachable "owner").1 node found
  · exact (focusOnClass_exact reachable "nobody").2 (by simp [classKeys])

end Registry

end CodeAtlas
