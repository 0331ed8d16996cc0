import CodeAtlas.Pool
import Mathlib.Data.List.Nodup
import Mathlib.Data.List.Perm.Basic

/-!
# Custody of resources

Whoever owns resources names them by slots, and each slot expects one kind of
resource.  A pool holds a list of slots when its live resources are exactly
theirs, each named once and of the kind expected.  Allocation adds a slot,
release takes one away, and replacing a shape in place keeps them all.
-/

namespace CodeAtlas

/-- What a resource is. -/
inductive ResourceKind where
  | label
  | shape
deriving DecidableEq, Repr

def Resource.kind {R : Type} : Resource R → ResourceKind
  | .label _ => .label
  | .shape _ => .shape

/-- A resource by its number, with the kind of resource expected there. -/
abbrev Slot : Type :=
  ResourceId × ResourceKind

/-- The slot of a resource that may be missing. -/
def Slot.filled (kind : ResourceKind) (resource : Option ResourceId) : List Slot :=
  resource.toList.map fun id => (id, kind)

@[simp]
theorem Slot.filled_none (kind : ResourceKind) : Slot.filled kind none = [] :=
  rfl

@[simp]
theorem Slot.filled_some (kind : ResourceKind) (id : ResourceId) :
    Slot.filled kind (some id) = [(id, kind)] :=
  rfl

/-- In a list of pairs without repeated keys, a lookup finds exactly the pairs of
the list. -/
theorem lookup_eq_some_iff_mem {β : Type} {pairs : List (ResourceId × β)} {id : ResourceId}
    {value : β} (distinct : (pairs.map Prod.fst).Nodup) :
    pairs.lookup id = some value ↔ (id, value) ∈ pairs := by
  induction pairs with
  | nil => simp
  | cons first rest ih =>
    rcases first with ⟨firstId, firstValue⟩
    obtain ⟨absent, restDistinct⟩ := List.nodup_cons.mp distinct
    by_cases same : id = firstId
    · subst same
      have notRest : (id, value) ∉ rest := fun mem => absent (List.mem_map.mpr ⟨_, mem, rfl⟩)
      simp [notRest, eq_comm]
    · have different : (id == firstId) = false := by simp [same]
      rw [List.lookup_cons, different]
      simp [same, ih restDistinct]

namespace Pool

variable {R : Type}

/-- The live resources by number and kind. -/
def inventory (pool : Pool R) : List Slot :=
  pool.entries.map fun entry => (entry.1, entry.2.kind)

/-- The live resources are exactly those of the slots, no two slots share one,
and numbers yet to be given out are new. -/
structure Holds (pool : Pool R) (slots : List Slot) : Prop where
  perm : pool.inventory.Perm slots
  distinct : (slots.map Prod.fst).Nodup
  bound : ∀ slot ∈ slots, slot.1 ≤ pool.lastId

variable {pool : Pool R} {slots rest : List Slot} {id : ResourceId} {kind : ResourceKind}

theorem Holds.of_perm (holds : pool.Holds slots) (perm : slots.Perm rest) : pool.Holds rest :=
  ⟨holds.perm.trans perm, (perm.map Prod.fst).nodup_iff.mp holds.distinct,
    fun slot mem => holds.bound slot (perm.mem_iff.mpr mem)⟩

/-- The order in which slots are listed does not matter. -/
theorem Holds.swap {first second : List Slot} (holds : pool.Holds (first ++ (second ++ rest))) :
    pool.Holds (second ++ (first ++ rest)) :=
  holds.of_perm (List.perm_append_comm_assoc _ _ _)

/-! ## Lookup -/

theorem get?_kind_eq (pool : Pool R) (id : ResourceId) :
    (pool.get? id).map Resource.kind = pool.inventory.lookup id := by
  rcases pool with ⟨lastId, entries⟩
  simp only [get?, inventory]
  induction entries with
  | nil => rfl
  | cons first rest ih =>
    rw [List.map_cons, List.lookup_cons, List.lookup_cons]
    cases id == first.1 with
    | true => rfl
    | false => exact ih

/-- A held slot names a live resource of its kind, and every live resource is
named by a slot. -/
theorem Holds.get?_iff (holds : pool.Holds slots) :
    (pool.get? id).map Resource.kind = some kind ↔ (id, kind) ∈ slots := by
  have distinct : (pool.inventory.map Prod.fst).Nodup :=
    (holds.perm.map Prod.fst).nodup_iff.mpr holds.distinct
  rw [get?_kind_eq, lookup_eq_some_iff_mem distinct, holds.perm.mem_iff]

theorem label?_isSome_iff : (pool.label? id).isSome = true ↔
    (pool.get? id).map Resource.kind = some .label := by
  unfold label?
  rcases pool.get? id with _ | (_ | _) <;> simp [Resource.kind]

theorem shape?_isSome_iff : (pool.shape? id).isSome = true ↔
    (pool.get? id).map Resource.kind = some .shape := by
  unfold shape?
  rcases pool.get? id with _ | (_ | _) <;> simp [Resource.kind]

theorem Holds.label? (holds : pool.Holds slots) (mem : (id, .label) ∈ slots) :
    (pool.label? id).isSome = true :=
  label?_isSome_iff.mpr (holds.get?_iff.mpr mem)

theorem Holds.shape? (holds : pool.Holds slots) (mem : (id, .shape) ∈ slots) :
    (pool.shape? id).isSome = true :=
  shape?_isSome_iff.mpr (holds.get?_iff.mpr mem)

theorem Holds.size (holds : pool.Holds slots) : pool.size = slots.length := by
  rw [← holds.perm.length_eq, inventory, List.length_map, Pool.size]

/-! ## Allocation and release -/

theorem holds_nil_of_empty (empty : pool.entries = []) : pool.Holds [] := by
  refine ⟨?_, by simp, by simp⟩
  rw [inventory, empty]
  exact List.Perm.refl _

theorem Holds.allocate (holds : pool.Holds slots) (resource : Resource R) :
    (pool.allocate resource).2.Holds (((pool.allocate resource).1, resource.kind) :: slots) := by
  refine ⟨holds.perm.cons _, ?_, ?_⟩
  · rw [List.map_cons, List.nodup_cons]
    refine ⟨?_, holds.distinct⟩
    intro mem
    obtain ⟨slot, slotMem, slotId⟩ := List.mem_map.mp mem
    have old : slot.1 ≤ pool.lastId := holds.bound slot slotMem
    have new : slot.1 = pool.lastId + 1 := slotId
    rw [new] at old
    exact Nat.not_succ_le_self _ old
  · intro slot mem
    rcases List.mem_cons.mp mem with rfl | old
    · exact Nat.le_refl _
    · exact Nat.le_succ_of_le (holds.bound slot old)

theorem Holds.allocateLabel (holds : pool.Holds slots) (label : LabelBitmap) :
    (pool.allocateLabel label).2.Holds (((pool.allocateLabel label).1, .label) :: slots) :=
  holds.allocate (.label label)

theorem Holds.allocateShape (holds : pool.Holds slots) (points : List (Vec R)) :
    (pool.allocateShape points).2.Holds (((pool.allocateShape points).1, .shape) :: slots) :=
  holds.allocate (.shape points)

theorem inventory_release (pool : Pool R) (id : ResourceId) :
    (pool.release id).inventory = pool.inventory.filter fun slot => slot.1 ≠ id := by
  simp only [inventory, release, List.filter_map]
  rfl

theorem Holds.release (holds : pool.Holds ((id, kind) :: slots)) :
    (pool.release id).Holds slots := by
  obtain ⟨absent, distinct⟩ := List.nodup_cons.mp holds.distinct
  have others : ∀ slot ∈ slots, slot.1 ≠ id :=
    fun slot mem same => absent (List.mem_map.mpr ⟨slot, mem, same⟩)
  refine ⟨?_, distinct, fun slot mem => holds.bound slot (List.mem_cons_of_mem _ mem)⟩
  have kept : ((id, kind) :: slots).filter (fun slot => slot.1 ≠ id) = slots := by
    rw [List.filter_cons_of_neg (by simp)]
    exact List.filter_eq_self.mpr fun slot mem => by simpa using others slot mem
  rw [inventory_release, ← kept]
  exact holds.perm.filter _

theorem Holds.releaseSlot {resource : Option ResourceId}
    (holds : pool.Holds (Slot.filled kind resource ++ slots)) :
    (pool.releaseSlot resource).Holds slots := by
  cases resource with
  | none => exact holds
  | some id => exact Holds.release holds

theorem Holds.releaseAll {ids : List ResourceId}
    (holds : pool.Holds ((ids.map fun id => (id, kind)) ++ slots)) :
    (pool.releaseAll ids).Holds slots := by
  induction ids generalizing pool with
  | nil => exact holds
  | cons first rest ih =>
    rw [List.map_cons, List.cons_append] at holds
    exact ih holds.release

/-- Releasing the slots of several owners. -/
theorem Holds.releaseSlots {α : Type} {owners : List α} {slot : α → Option ResourceId}
    (holds : pool.Holds ((owners.flatMap fun owner => Slot.filled kind (slot owner)) ++ slots)) :
    (owners.foldl (fun pool owner => pool.releaseSlot (slot owner)) pool).Holds slots := by
  induction owners generalizing pool with
  | nil => exact holds
  | cons first rest ih =>
    rw [List.flatMap_cons, List.append_assoc] at holds
    exact ih holds.releaseSlot

/-! ## Replacement in place -/

theorem Holds.put (holds : pool.Holds slots) {resource : Resource R}
    (mem : (id, resource.kind) ∈ slots) : (pool.put id resource).Holds slots := by
  refine ⟨?_, holds.distinct, holds.bound⟩
  have same : (pool.put id resource).inventory = pool.inventory := by
    simp only [inventory, Pool.put, List.map_map]
    apply List.map_congr_left
    intro entry entryMem
    by_cases hit : entry.1 = id
    · -- The slot and the entry have one number, so they have one kind.
      have held : (entry.1, entry.2.kind) ∈ slots :=
        holds.perm.mem_iff.mp (List.mem_map_of_mem entryMem)
      have equal : (entry.1, entry.2.kind) = (id, resource.kind) :=
        List.inj_on_of_nodup_map holds.distinct held mem hit
      simp [hit, (Prod.mk.inj equal).2]
    · simp [hit]
  rw [same]
  exact holds.perm

/-- A slot for a shape is filled afterwards, whether its shape was replaced in
place or is new. -/
theorem Holds.upsertShape {resource : Option ResourceId}
    (holds : pool.Holds (Slot.filled .shape resource ++ slots)) (points : List (Vec R)) :
    (pool.upsertShape resource points).2.Holds
      (((pool.upsertShape resource points).1, .shape) :: slots) := by
  cases resource with
  | none => exact Holds.allocateShape holds points
  | some id =>
    have mem : (id, ResourceKind.shape) ∈ Slot.filled .shape (some id) ++ slots := by simp
    have live := holds.shape? mem
    simp only [Pool.upsertShape, live, if_true]
    exact Holds.put holds mem

end Pool

end CodeAtlas
