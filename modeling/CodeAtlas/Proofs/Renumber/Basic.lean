import CodeAtlas.Proofs.PoolContents
import CodeAtlas.Registry.Basic

/-!
# Renumbering resources

Numbers of resources have no meaning but to tell resources apart, so the same
things can be told with other numbers.  Renumberings that keep numbers in
sequence go along with everything that is done to a pool.
-/

namespace CodeAtlas

variable {R : Type} {f : ResourceId → ResourceId}

/-- Numbers that follow on each other still do so. -/
def Shifts (f : ResourceId → ResourceId) : Prop :=
  ∀ id, f (id + 1) = f id + 1

theorem shifts_add (count : Nat) : Shifts (count + ·) :=
  fun _ => rfl

theorem Shifts.eq_add (shifts : Shifts f) (id : ResourceId) : f id = f 0 + id := by
  induction id with
  | zero => rfl
  | succ id ih =>
    rw [shifts id, ih]
    rfl

theorem Shifts.eq_iff (shifts : Shifts f) {id other : ResourceId} : f id = f other ↔ id = other := by
  rw [shifts.eq_add id, shifts.eq_add other]
  exact Nat.add_left_cancel_iff

/-! ## Pools -/

namespace Pool

/-- The same resources under other numbers. -/
def renumber (f : ResourceId → ResourceId) (pool : Pool R) : Pool R :=
  ⟨f pool.lastId, pool.entries.map fun entry => (f entry.1, entry.2)⟩

section

variable (shifts : Shifts f)
include shifts

theorem lookup_map_fst {β : Type} (pairs : List (ResourceId × β)) (id : ResourceId) :
    (pairs.map fun pair => (f pair.1, pair.2)).lookup (f id) = pairs.lookup id := by
  induction pairs with
  | nil => rfl
  | cons first rest ih =>
    rcases first with ⟨key, value⟩
    by_cases same : id = key
    · subst same
      simp
    · have apart : f id ≠ f key := fun hit => same (shifts.eq_iff.mp hit)
      rw [List.map_cons, lookup_cons_of_ne apart, lookup_cons_of_ne same, ih]

section

variable (pool : Pool R)

theorem get?_renumber (id : ResourceId) : (pool.renumber f).get? (f id) = pool.get? id :=
  lookup_map_fst shifts pool.entries id

theorem label?_renumber (id : ResourceId) : (pool.renumber f).label? (f id) = pool.label? id := by
  rw [label?, label?, get?_renumber shifts]

theorem shape?_renumber (id : ResourceId) : (pool.renumber f).shape? (f id) = pool.shape? id := by
  rw [shape?, shape?, get?_renumber shifts]

theorem allocate_renumber (resource : Resource R) :
    (pool.renumber f).allocate resource =
      (f (pool.allocate resource).1, (pool.allocate resource).2.renumber f) := by
  simp [allocate, renumber, shifts pool.lastId]

theorem put_renumber (id : ResourceId) (resource : Resource R) :
    (pool.renumber f).put (f id) resource = (pool.put id resource).renumber f := by
  simp only [put, renumber, List.map_map]
  congr 1
  apply List.map_congr_left
  intro entry _
  by_cases hit : entry.1 = id
  · simp [hit]
  · simp [hit, shifts.eq_iff]

theorem release_renumber (id : ResourceId) :
    (pool.renumber f).release (f id) = (pool.release id).renumber f := by
  simp only [release, renumber, List.filter_map]
  congr 2
  apply List.filter_congr
  intro entry _
  simp [shifts.eq_iff]

theorem releaseSlot_renumber (slot : Option ResourceId) :
    (pool.renumber f).releaseSlot (slot.map f) = (pool.releaseSlot slot).renumber f := by
  cases slot with
  | none => rfl
  | some id => exact release_renumber shifts pool id

theorem upsertShape_renumber (slot : Option ResourceId) (points : List (Vec R)) :
    (pool.renumber f).upsertShape (slot.map f) points =
      (f (pool.upsertShape slot points).1, (pool.upsertShape slot points).2.renumber f) := by
  cases slot with
  | none => exact allocate_renumber shifts pool _
  | some id =>
    simp only [upsertShape, Option.map_some, shape?_renumber shifts]
    split
    · rw [put_renumber shifts]
    · exact allocate_renumber shifts pool _

end

end

end Pool

/-! ## Stores -/

namespace Store

/-- Changes every thing in a store. -/
def map {α : Type} (store : Store α) (change : α → α) : Store α :=
  ⟨store.items.map change⟩

variable {α : Type} [Keyed α] {change : α → α}

section

variable (keeps : ∀ item, Keyed.key (change item) = Keyed.key item) (store : Store α)
include keeps

theorem get?_map (key : String) : (store.map change).get? key = (store.get? key).map change := by
  rw [get?, map, List.find?_map]
  congr 2
  funext item
  simp [keeps]

theorem contains_map (key : String) : (store.map change).contains key = store.contains key := by
  rw [contains, map, List.any_map]
  congr 1
  funext item
  simp [keeps]

theorem modify_map (key : String) {first second : α → α}
    (commutes : ∀ item, second (change item) = change (first item)) :
    (store.map change).modify key second = (store.modify key first).map change := by
  simp only [modify, map, List.map_map]
  congr 1
  apply List.map_congr_left
  intro item _
  by_cases hit : Keyed.key item = key
  · simp [keeps, hit, commutes]
  · simp [keeps, hit]

theorem insert_map (item : α) :
    (store.map change).insert (change item) = (store.insert item).map change := by
  unfold insert
  rw [contains_map keeps, keeps]
  split
  · exact modify_map keeps store _ fun _ => rfl
  · simp [map]

end

end Store

/-! ## What is on the map -/

def Method.renumber (f : ResourceId → ResourceId) (method : Method) : Method :=
  { method with label := method.label.map f }

def ClassNode.renumber (f : ResourceId → ResourceId) (node : ClassNode R) : ClassNode R :=
  { node with headerLabel := node.headerLabel.map f, outline := node.outline.map f }

def StandaloneNode.renumber (f : ResourceId → ResourceId) (node : StandaloneNode R) :
    StandaloneNode R :=
  { node with label := node.label.map f, outline := node.outline.map f }

def Edge.renumber (f : ResourceId → ResourceId) (edge : Edge) : Edge :=
  { edge with geometry := edge.geometry.map f }

theorem Method.key_renumber (method : Method) :
    Keyed.key (method.renumber f) = Keyed.key method :=
  rfl

theorem ClassNode.key_renumber (node : ClassNode R) :
    Keyed.key (node.renumber f) = Keyed.key node :=
  rfl

theorem StandaloneNode.key_renumber (node : StandaloneNode R) :
    Keyed.key (node.renumber f) = Keyed.key node :=
  rfl

theorem Edge.key_renumber (edge : Edge) : Keyed.key (edge.renumber f) = Keyed.key edge :=
  rfl

namespace Registry

/-- The same map with other numbers for its resources. -/
def renumber (f : ResourceId → ResourceId) (reg : Registry R) : Registry R :=
  { reg with
    classes := reg.classes.map (.renumber f)
    methods := reg.methods.map (.renumber f)
    standalone := reg.standalone.map (.renumber f)
    edges := reg.edges.map (.renumber f)
    pool := reg.pool.renumber f }

variable (reg : Registry R) (id : NodeId)

@[simp]
theorem get?_classes_renumber : (reg.renumber f).classes.get? id =
    (reg.classes.get? id).map (ClassNode.renumber f) :=
  Store.get?_map ClassNode.key_renumber reg.classes id

@[simp]
theorem get?_methods_renumber : (reg.renumber f).methods.get? id =
    (reg.methods.get? id).map (Method.renumber f) :=
  Store.get?_map Method.key_renumber reg.methods id

@[simp]
theorem get?_standalone_renumber : (reg.renumber f).standalone.get? id =
    (reg.standalone.get? id).map (StandaloneNode.renumber f) :=
  Store.get?_map StandaloneNode.key_renumber reg.standalone id

@[simp]
theorem contains_classes_renumber :
    (reg.renumber f).classes.contains id = reg.classes.contains id :=
  Store.contains_map ClassNode.key_renumber reg.classes id

@[simp]
theorem contains_standalone_renumber :
    (reg.renumber f).standalone.contains id = reg.standalone.contains id :=
  Store.contains_map StandaloneNode.key_renumber reg.standalone id

@[simp]
theorem contains_edges_renumber :
    (reg.renumber f).edges.contains id = reg.edges.contains id :=
  Store.contains_map Edge.key_renumber reg.edges id

@[simp]
theorem containsNode_renumber :
    (reg.renumber f).containsNode id = reg.containsNode id := by
  have methods : (reg.renumber f).methods.contains id = reg.methods.contains id :=
    Store.contains_map Method.key_renumber reg.methods id
  simp [containsNode, methods]

end Registry

end CodeAtlas
