import CodeAtlas.Proofs.Registry.Batch
import CodeAtlas.Proofs.Registry.Kinds
import CodeAtlas.Proofs.Registry.Run

/-!
# What an id names

Whoever asks about an id hears of the same thing: of the class with that id,
else of the method, else of the standalone node.  A second thing with the id
hides behind the first one only if some batch clashed: it brought a new id as a
method, then as a class, and a class claimed the method.
-/

namespace CodeAtlas

variable {R : Type} [Scalar R] {reg : Registry R}

/-- Something on the map that an id can name. -/
inductive Entity (R : Type) where
  | classBox (node : ClassNode R)
  | methodRow (method : Method)
  | standaloneBox (node : StandaloneNode R)

namespace Entity

def labels : Entity R → List String
  | classBox node => node.labels
  | methodRow method => method.labels
  | standaloneBox node => node.labels

/-- The id of the box that it is, or is a row of. -/
def box : Entity R → NodeId
  | classBox node => node.id
  | methodRow method => method.classId
  | standaloneBox node => node.id

end Entity

namespace Registry

/-- What an id names. -/
def entity? (reg : Registry R) (id : NodeId) : Option (Entity R) :=
  match reg.classes.get? id with
  | some node => some (.classBox node)
  | none =>
    match reg.methods.get? id with
    | some method => some (.methodRow method)
    | none => (reg.standalone.get? id).map .standaloneBox

/-- The map without one thing. -/
def remove (reg : Registry R) : Entity R → Registry R
  | .classBox node => reg.deleteClass node
  | .methodRow method => reg.deleteMethod method
  | .standaloneBox node => reg.deleteStandalone node

/-- Where edges attach to a thing. -/
def anchorOf (reg : Registry R) : Entity R → Option (Rect R)
  | .classBox node => some node.rect
  | .methodRow method => (reg.methodRowRect method.id).or (reg.headerRect method.classId)
  | .standaloneBox node => some node.rect

omit [Scalar R] in
theorem entity?_cases (reg : Registry R) (id : NodeId) :
    (∃ node, reg.classes.get? id = some node ∧ reg.entity? id = some (.classBox node)) ∨
    (∃ method, reg.classes.get? id = none ∧ reg.methods.get? id = some method ∧
      reg.entity? id = some (.methodRow method)) ∨
    (∃ node, reg.classes.get? id = none ∧ reg.methods.get? id = none ∧
      reg.standalone.get? id = some node ∧
      reg.entity? id = some (.standaloneBox node)) ∨
    (reg.classes.get? id = none ∧ reg.methods.get? id = none ∧
      reg.standalone.get? id = none ∧ reg.entity? id = none) := by
  unfold entity?
  cases reg.classes.get? id with
  | some node => simp
  | none =>
    cases reg.methods.get? id with
    | some method => simp
    | none => cases reg.standalone.get? id <;> simp

omit [Scalar R] in
/-- Standalone nodes never stand beside classes and methods. -/
theorem Coherent.standalone_apart (coherent : reg.Coherent) {id : NodeId}
    (isStandalone : id ∈ reg.standalone.keys) :
    id ∉ reg.classes.keys ∧ id ∉ reg.methods.keys := by
  cases perspective : reg.perspective with
  | technical =>
    rw [Store.keys, coherent.technical perspective] at isStandalone
    cases isStandalone
  | architecture =>
    obtain ⟨noClass, noMethod⟩ := coherent.architecture perspective
    simp [Store.keys, noClass, noMethod]

/-! ## Whoever asks hears of the same thing -/

omit [Scalar R] in
theorem containsNode_eq_isSome (reg : Registry R) (id : NodeId) :
    reg.containsNode id = (reg.entity? id).isSome := by
  rw [Bool.eq_iff_iff, containsNode_iff]
  rcases reg.entity?_cases id with ⟨_, isClass, named⟩ | ⟨_, _, isMethod, named⟩ |
      ⟨_, _, _, isStandalone, named⟩ | ⟨noClass, noMethod, noStandalone, named⟩
  · simp [named, Store.mem_keys_of_get? isClass]
  · simp [named, Store.mem_keys_of_get? isMethod]
  · simp [named, Store.mem_keys_of_get? isStandalone]
  · rw [Store.get?_eq_none_iff] at noClass noMethod noStandalone
    simp [named, noClass, noMethod, noStandalone]

omit [Scalar R] in
theorem labelsOf_eq (reg : Registry R) (id : NodeId) :
    reg.labelsOf id = (reg.entity? id).map Entity.labels := by
  unfold labelsOf
  rcases reg.entity?_cases id with ⟨_, isClass, named⟩ | ⟨_, noClass, isMethod, named⟩ |
      ⟨_, noClass, noMethod, isStandalone, named⟩ | ⟨noClass, noMethod, noStandalone, named⟩
  · simp [named, isClass, Entity.labels]
  · simp [named, noClass, isMethod, Entity.labels]
  · simp [named, noClass, noMethod, isStandalone, Entity.labels]
  · simp [named, noClass, noMethod, noStandalone]

theorem deleteNode_eq (reg : Registry R) (id : NodeId) :
    reg.deleteNode id =
      ((reg.entity? id).isSome, (reg.entity? id).elim reg reg.remove) := by
  unfold deleteNode
  rcases reg.entity?_cases id with ⟨_, isClass, named⟩ | ⟨_, noClass, isMethod, named⟩ |
      ⟨_, noClass, noMethod, isStandalone, named⟩ | ⟨noClass, noMethod, noStandalone, named⟩
  · simp [named, isClass, remove]
  · simp [named, noClass, isMethod, remove]
  · simp [named, noClass, noMethod, isStandalone, remove]
  · simp [named, noClass, noMethod, noStandalone]

omit [Scalar R] in
/-- The owner of a box looks for standalone nodes before methods, which makes no
difference as there are never both. -/
theorem Coherent.layoutOwner_eq (coherent : reg.Coherent)
    (id : NodeId) : reg.layoutOwner id = (reg.entity? id).map Entity.box := by
  unfold layoutOwner
  rcases reg.entity?_cases id with ⟨node, isClass, named⟩ | ⟨_, noClass, isMethod, named⟩ |
      ⟨node, _, _, isStandalone, named⟩ | ⟨noClass, noMethod, noStandalone, named⟩
  · have known := Store.contains_iff.mpr (Store.mem_keys_of_get? isClass)
    have idEq : node.id = id := Store.key_of_get? isClass
    simp [named, known, Entity.box, idEq]
  · have notClass := Store.contains_eq_false_iff.mpr (Store.get?_eq_none_iff.mp noClass)
    have notStandalone : reg.standalone.contains id = false := by
      rw [Store.contains_eq_false_iff]
      intro isStandalone
      exact (coherent.standalone_apart isStandalone).2 (Store.mem_keys_of_get? isMethod)
    simp [named, notClass, notStandalone, isMethod, Entity.box]
  · have known := Store.contains_iff.mpr (Store.mem_keys_of_get? isStandalone)
    have idEq : node.id = id := Store.key_of_get? isStandalone
    simp [named, known, Entity.box, idEq]
  · have notClass := Store.contains_eq_false_iff.mpr (Store.get?_eq_none_iff.mp noClass)
    have notStandalone := Store.contains_eq_false_iff.mpr (Store.get?_eq_none_iff.mp noStandalone)
    simp [named, notClass, notStandalone, noMethod]

theorem Coherent.anchorRect_eq (coherent : reg.Coherent)
    (id : NodeId) : reg.anchorRect id = (reg.entity? id).bind reg.anchorOf := by
  unfold anchorRect
  rcases reg.entity?_cases id with ⟨_, isClass, named⟩ | ⟨method, noClass, isMethod, named⟩ |
      ⟨_, noClass, _, isStandalone, named⟩ | ⟨noClass, noMethod, noStandalone, named⟩
  · simp [named, isClass, anchorOf]
  · have notStandalone : reg.standalone.get? id = none := by
      rw [Store.get?_eq_none_iff]
      intro isStandalone
      exact (coherent.standalone_apart isStandalone).2 (Store.mem_keys_of_get? isMethod)
    have idEq : method.id = id := Store.key_of_get? isMethod
    cases row : reg.methodRowRect id <;>
      simp [named, noClass, notStandalone, isMethod, anchorOf, idEq, row]
  · simp [named, noClass, isStandalone, anchorOf]
  · simp [named, noClass, noMethod, noStandalone]

/-! ## Clashes -/

/-- An id names a class and a method at once. -/
def Doubled (reg : Registry R) (id : NodeId) : Prop :=
  id ∈ reg.classes.keys ∧ id ∈ reg.methods.keys

/-- The classes on a map once those of a batch have come. -/
def ownersWith (reg : Registry R) (nodes : List Node) : List NodeId :=
  reg.classes.keys ++
    (nodes.filter fun node =>
      node.kind == .classType && !reg.containsNode node.id).map Node.id

/-- A batch gives two things one id: the id is new, it comes as a method and
then as a class, and a class claims the method. -/
structure Clash (reg : Registry R) (nodes : List Node) (links : List Relationship)
    (id : NodeId) : Prop where
  technical : reg.perspective = .technical
  new : reg.containsNode id = false
  methodFirst : MethodFirst nodes id
  thenClass : BringsClass nodes id
  claimed : Claimed links (reg.ownersWith nodes) id

/-- An operation takes in a batch that clashes on an id. -/
def ClashesOn (reg : Registry R) (operation : Operation R) (id : NodeId) : Prop :=
  match operation with
  | .addData nodes links => reg.Clash nodes links id
  | .setData nodes links => reg.clear.Clash nodes links id
  | _ => False

section
omit [Scalar R]

theorem Doubled.of_within {reg other : Registry R} {id : NodeId} (doubled : other.Doubled id)
    (within : other.Within reg) : reg.Doubled id :=
  ⟨within.classes id doubled.1, within.methods id doubled.2⟩

theorem not_doubled_of_empty (classes : reg.classes.items = [])
    (id : NodeId) : ¬ reg.Doubled id := by
  intro doubled
  exact unambiguous_of_empty classes id doubled.1 doubled.2

theorem Coherent.technical_of_doubled (coherent : reg.Coherent) {id : NodeId}
    (doubled : reg.Doubled id) : reg.perspective = .technical := by
  cases perspective : reg.perspective with
  | technical => rfl
  | architecture =>
    exact absurd doubled (not_doubled_of_empty (coherent.architecture perspective).1 id)

end

theorem Coherent.claimed_owners (coherent : reg.Coherent)
    (technical : reg.perspective = .technical) {nodes : List Node}
    {links : List Relationship} {id : NodeId} :
    Claimed links (reg.addData nodes links).2.classes.keys id ↔
      Claimed links (reg.ownersWith nodes) id := by
  have owners : ∀ owner, owner ∈ (reg.addData nodes links).2.classes.keys ↔
      owner ∈ reg.ownersWith nodes := by
    intro owner
    rw [coherent.mem_classes_addData technical]
    simp only [ownersWith, BringsClass, List.mem_append, List.mem_map, List.mem_filter,
      Bool.and_eq_true, beq_iff_eq, Bool.not_eq_true']
    grind
  simp only [Claimed, owners]

/-- A batch doubles exactly the ids it clashes on. -/
theorem Coherent.doubled_addData (coherent : reg.Coherent) {nodes : List Node}
    {links : List Relationship} {id : NodeId} :
    (reg.addData nodes links).2.Doubled id ↔
      reg.Doubled id ∨ reg.Clash nodes links id := by
  have perspective := coherent.perspective_addData nodes links
  constructor
  · intro doubled
    have technical : reg.perspective = .technical :=
      perspective.symm.trans
        ((coherent.addData nodes links).technical_of_doubled doubled)
    have isClass := (coherent.mem_classes_addData technical).mp doubled.1
    have isMethod := (coherent.mem_methods_addData technical).mp doubled.2
    rw [coherent.claimed_owners technical] at isMethod
    cases known : reg.containsNode id with
    | true =>
      simp only [known, Bool.true_eq_false, false_and, or_false] at isClass isMethod
      exact Or.inl ⟨isClass, isMethod⟩
    | false =>
      obtain ⟨noClass, noMethod, _⟩ := Ingest.not_mem_keys_of_new known
      obtain ⟨_, first, claimed⟩ := isMethod.resolve_left noMethod
      exact Or.inr ⟨technical, known, first, (isClass.resolve_left noClass).2, claimed⟩
  · rintro (⟨isClass, isMethod⟩ | clash)
    · have technical := coherent.technical_of_doubled ⟨isClass, isMethod⟩
      exact ⟨(coherent.mem_classes_addData technical).mpr (Or.inl isClass),
        (coherent.mem_methods_addData technical).mpr (Or.inl isMethod)⟩
    · have claimed := (coherent.claimed_owners clash.technical).mpr clash.claimed
      exact ⟨(coherent.mem_classes_addData clash.technical).mpr
          (Or.inr ⟨clash.new, clash.thenClass⟩),
        (coherent.mem_methods_addData clash.technical).mpr
          (Or.inr ⟨clash.new, clash.methodFirst, claimed⟩)⟩

theorem doubled_setData {nodes : List Node} {links : List Relationship} {id : NodeId} :
    (reg.setData nodes links).2.Doubled id ↔
      reg.clear.Clash nodes links id := by
  have start : ¬ reg.clear.Doubled id := not_doubled_of_empty rfl id
  rw [setData, (coherent_clear reg).doubled_addData, or_iff_right start]

/-- Only a clash doubles an id. -/
theorem Coherent.doubled_or_clashes_of_apply (coherent : reg.Coherent)
    {operation : Operation R} {id : NodeId} (doubled : (reg.apply operation).Doubled id) :
    reg.Doubled id ∨ reg.ClashesOn operation id := by
  by_cases rows : operation.isRows = true
  · rcases coherent.rowsChange_apply rows with ⟨_, change⟩
    exact Or.inl (doubled.of_within (coherent.within_rowsChange change))
  cases operation with
  | setData nodes links => exact Or.inr (doubled_setData.mp doubled)
  | addData nodes links => exact coherent.doubled_addData.mp doubled
  | clear => exact absurd doubled (not_doubled_of_empty rfl id)
  | setPerspective perspective =>
    exact Or.inl (doubled.of_within (within_setPerspective reg perspective))
  | deleteNode deleted => exact Or.inl (doubled.of_within (coherent.within_deleteNode deleted))
  | focusOnClass classId => exact Or.inl (doubled.of_within (coherent.within_focusOnClass classId))
  | applyPositions positions =>
    exact Or.inl (doubled.of_within (within_of_bare_eq (bare_applyPositions reg positions)))
  | updateEdgeGeometry =>
    exact Or.inl (doubled.of_within (within_of_bare_eq (bare_updateEdgeGeometry reg)))
  | _ => exact absurd rfl rows

theorem Coherent.doubled_of_clashesOn (coherent : reg.Coherent) {operation : Operation R}
    {id : NodeId} (clashes : reg.ClashesOn operation id) :
    (reg.apply operation).Doubled id := by
  cases operation with
  | addData nodes links => exact coherent.doubled_addData.mpr (Or.inr clashes)
  | setData nodes links => exact doubled_setData.mpr clashes
  | _ => exact clashes.elim

theorem run_concat (reg : Registry R) (operations : List (Operation R)) (operation : Operation R) :
    reg.run (operations ++ [operation]) = (reg.run operations).apply operation := by
  simp [run]

/-- An id that is doubled after a run was so before, or a batch of the run
clashed on it. -/
theorem Coherent.doubled_or_clashed_of_run {start : Registry R} (coherent : start.Coherent)
    {id : NodeId} {operations : List (Operation R)}
    (doubled : (start.run operations).Doubled id) :
    start.Doubled id ∨ ∃ earlier operation later, operations = earlier ++ operation :: later ∧
      (start.run earlier).ClashesOn operation id := by
  induction operations generalizing start with
  | nil => exact Or.inl doubled
  | cons operation rest ih =>
    rcases ih (coherent.apply operation) doubled with
      before | ⟨earlier, clashing, later, rfl, clashes⟩
    · rcases coherent.doubled_or_clashes_of_apply before with already | clashes
      · exact Or.inl already
      · exact Or.inr ⟨[], operation, rest, rfl, clashes⟩
    · exact Or.inr ⟨operation :: earlier, clashing, later, rfl, clashes⟩

/-- After every run from an empty map: no id names a standalone node and also a
class or a method; an id names a class and also a method only if a batch of the
run clashed on it, and every such batch has that effect; and whoever asks about
an id is told about the same thing. -/
theorem doubled_only_by_clash (metrics : NodeMetrics R) (toggles : Toggles) (text : TextMetrics R)
    (operations : List (Operation R)) :
    let start := create metrics toggles text
    let registry := start.run operations
    (∀ id ∈ registry.standalone.keys, id ∉ registry.classes.keys ∧ id ∉ registry.methods.keys) ∧
    (∀ id, id ∈ registry.classes.keys → id ∈ registry.methods.keys →
      ∃ earlier operation later, operations = earlier ++ operation :: later ∧
        (start.run earlier).ClashesOn operation id) ∧
    (∀ earlier operation later id, operations = earlier ++ operation :: later →
      (start.run earlier).ClashesOn operation id →
      id ∈ (start.run (earlier ++ [operation])).classes.keys ∧
        id ∈ (start.run (earlier ++ [operation])).methods.keys) ∧
    ∀ id,
      registry.containsNode id = (registry.entity? id).isSome ∧
      registry.labelsOf id = (registry.entity? id).map Entity.labels ∧
      registry.deleteNode id =
        ((registry.entity? id).isSome, (registry.entity? id).elim registry registry.remove) ∧
      registry.layoutOwner id = (registry.entity? id).map Entity.box ∧
      registry.anchorRect id = (registry.entity? id).bind registry.anchorOf := by
  intro start registry
  have first : start.Coherent := coherent_create metrics toggles text
  have coherent : registry.Coherent := first.run operations
  refine ⟨fun id isStandalone => coherent.standalone_apart isStandalone, ?_, ?_, ?_⟩
  · intro id isClass isMethod
    exact (first.doubled_or_clashed_of_run ⟨isClass, isMethod⟩).resolve_left
      (not_doubled_of_empty rfl id)
  · intro earlier operation later id _ clashes
    rw [run_concat]
    exact (first.run earlier).doubled_of_clashesOn clashes
  · intro id
    exact ⟨containsNode_eq_isSome registry id, labelsOf_eq registry id, deleteNode_eq registry id,
      coherent.layoutOwner_eq id, coherent.anchorRect_eq id⟩

theorem doubled_by_clash_sample :
    let start := create (NodeMetrics.standard (R := Float32)) {} (.monospace 14)
    start.ClashesOn (.setData clashNodes clashClaims) "x" ∧
      "x" ∈ (start.run [.setData clashNodes clashClaims]).classes.keys ∧
      "x" ∈ (start.run [.setData clashNodes clashClaims]).methods.keys := by
  intro start
  have clashes : start.ClashesOn (.setData clashNodes clashClaims) "x" := by
    refine ⟨rfl, rfl, ?_, ?_, ?_⟩
    · unfold MethodFirst
      decide
    · unfold BringsClass
      decide
    · unfold Claimed
      decide
  obtain ⟨_, _, effect, _⟩ :=
    doubled_only_by_clash (NodeMetrics.standard (R := Float32)) {} (.monospace 14)
      [.setData clashNodes clashClaims]
  exact ⟨clashes, effect [] _ [] "x" rfl clashes⟩

end Registry

end CodeAtlas
