import CodeAtlas.Proofs.Registry.Store
import CodeAtlas.Registry.Table

/-!
# Stores on shelves

A store whose keys are distinct can be kept on a shelf, and every operation on
the shelf gives the shelf of the store after that operation.  So order and table
stay in step, although each of them is edited on its own.
-/

namespace CodeAtlas

variable {α : Type} [Keyed α] {store : Store α} {key : String} {item : α} {change : α → α}

/-- Where keys are distinct, a thing is kept by a condition exactly if its key
is. -/
theorem Store.key_mem_map_filter_iff (distinct : store.keys.Nodup) (mem : item ∈ store.items)
    {kept : α → Bool} :
    Keyed.key item ∈ (store.items.filter kept).map Keyed.key ↔ kept item = true := by
  rw [List.mem_map]
  constructor
  · rintro ⟨other, otherMem, same⟩
    obtain ⟨otherMem, isKept⟩ := List.mem_filter.mp otherMem
    exact eq_of_key_eq distinct otherMem mem same ▸ isKept
  · intro isKept
    exact ⟨item, List.mem_filter.mpr ⟨mem, isKept⟩, rfl⟩

namespace Table

/-- The things of a store under their keys. -/
def of (store : Store α) : Table α :=
  ⟨store.items.map fun item => (Keyed.key item, item)⟩

@[simp]
theorem get?_of (store : Store α) : (of store).get? = store.get? := by
  rcases store with ⟨items⟩
  funext key
  induction items with
  | nil => rfl
  | cons first rest ih =>
    simp only [get?, of, Store.get?, List.map_cons, List.lookup_cons, List.find?_cons] at ih ⊢
    rw [ih, Bool.beq_comm]

@[simp]
theorem contains_of (store : Store α) : (of store).contains = store.contains := by
  funext key
  rw [contains, get?_of, Store.get?, Store.contains, List.isSome_find?]

@[simp]
theorem values_of (store : Store α) : (of store).values = store.items := by
  simp [values, of, Function.comp_def]

theorem modify_of (keepsKey : ∀ item, Keyed.key item = key → Keyed.key (change item) = key) :
    (of store).modify key change = of (store.modify key change) := by
  simp only [modify, of, Store.modify, List.map_map, mk.injEq]
  apply List.map_congr_left
  intro item _
  by_cases same : Keyed.key item = key
  · simp [same, keepsKey item same]
  · simp [same]

theorem insert_of (own : Keyed.key item = key) :
    (of store).insert key item = of (store.insert item) := by
  subst own
  rw [insert, Store.insert, contains_of]
  split
  · exact modify_of fun _ _ => rfl
  · simp [of]

@[simp]
theorem remove_of (store : Store α) (key : String) :
    (of store).remove key = of (store.erase key) := by
  simp only [remove, of, Store.erase, List.filter_map, Function.comp_def]

theorem removeAll_of {keys : List String} (distinct : keys.Nodup) :
    (of store).removeAll keys =
      (keys.filterMap store.get?, of (keys.foldl Store.erase store)) := by
  induction keys generalizing store with
  | nil => rfl
  | cons first rest ih =>
    obtain ⟨absent, restDistinct⟩ := List.nodup_cons.mp distinct
    have sameLookup : ∀ key ∈ rest, (store.erase first).get? key = store.get? key :=
      fun key mem => Store.get?_erase_of_ne fun same => absent (same ▸ mem)
    rw [removeAll, remove_of, ih restDistinct, List.filterMap_congr sameLookup,
      get?_of, List.filterMap_cons, List.foldl_cons]
    cases store.get? first <;> rfl

/-- Taking out everything that meets a condition. -/
theorem removeAll_filter (distinct : store.keys.Nodup) (doomed : α → Bool) :
    (of store).removeAll ((store.items.filter doomed).map Keyed.key) =
      (store.items.filter doomed, of ⟨store.items.filter fun item => !doomed item⟩) := by
  have gone : ((store.items.filter doomed).map Keyed.key).filterMap store.get? =
      store.items.filter doomed := by
    rw [List.filterMap_map, List.filterMap_congr (g := some), List.filterMap_some]
    exact fun item mem => Store.get?_of_mem distinct (List.mem_of_mem_filter mem)
  have left : ((store.items.filter doomed).map Keyed.key).foldl Store.erase store =
      ⟨store.items.filter fun item => !doomed item⟩ := by
    refine congrArg Store.mk ((Store.items_foldl_erase _).trans (List.filter_congr ?_))
    intro item mem
    congr 1
    rw [Bool.eq_iff_iff, List.contains_iff_mem, Store.key_mem_map_filter_iff distinct mem]
  rw [removeAll_of (distinct.sublist (List.filter_sublist.map _)), gone, left]

end Table

namespace Shelf

/-- Order and table are in step: no key stands twice in the order, the keys in it
are those with something under them, and everything is under its own key. -/
structure InStep (shelf : Shelf α) : Prop where
  distinct : shelf.order.Nodup
  mem_order_iff : ∀ key, key ∈ shelf.order ↔ shelf.contains key = true
  own : ∀ key item, shelf.get? key = some item → Keyed.key item = key

/-- A store with its order written beside it. -/
def of (store : Store α) : Shelf α :=
  ⟨store.keys, .of store⟩

theorem inStep_of (distinct : store.keys.Nodup) : (of store).InStep where
  distinct := distinct
  mem_order_iff key := by
    rw [contains, of, Table.contains_of, Store.contains_iff]
  own key item found := by
    rw [get?, of, Table.get?_of] at found
    exact Store.key_of_get? found

@[simp]
theorem get?_of (store : Store α) : (of store).get? = store.get? :=
  Table.get?_of store

@[simp]
theorem contains_of (store : Store α) : (of store).contains = store.contains :=
  Table.contains_of store

theorem items_of (distinct : store.keys.Nodup) : (of store).items = store.items := by
  rw [items, get?_of, of, Store.keys, List.filterMap_map]
  have found : ∀ item ∈ store.items, (store.get? ∘ Keyed.key) item = some item :=
    fun item mem => Store.get?_of_mem distinct mem
  rw [List.filterMap_congr found, List.filterMap_some]

theorem modify_of (keepsKey : ∀ item, Keyed.key item = key → Keyed.key (change item) = key) :
    (of store).modify key change = of (store.modify key change) := by
  rw [modify, of, Table.modify_of keepsKey, of, Store.keys_modify keepsKey]

/-- A thing with a new key may be put on the shelf. -/
theorem push_of (own : Keyed.key item = key) (new : store.contains key = false) :
    (of store).push key item = of (store.insert item) := by
  subst own
  rw [push, of, Table.insert_of rfl, of,
    Store.keys_insert_of_new (Store.contains_eq_false_iff.mp new)]

@[simp]
theorem remove_of (store : Store α) (key : String) :
    (of store).remove key = of (store.erase key) := by
  rw [remove, of, Table.remove_of, of]
  simp only [Store.keys, Store.erase, List.filter_map, Function.comp_def]

theorem removeWhere_of (distinct : store.keys.Nodup) (doomed : α → Bool) :
    (of store).removeWhere doomed =
      (store.items.filter doomed, of ⟨store.items.filter fun item => !doomed item⟩) := by
  -- The keys to go are those of the things that meet the condition.
  have keys : (of store).order.filter (fun key => ((of store).get? key).any doomed) =
      (store.items.filter doomed).map Keyed.key := by
    rw [get?_of, of, Store.keys, List.filter_map]
    congr 1
    apply List.filter_congr
    intro item mem
    simp [Store.get?_of_mem distinct mem]
  rw [removeWhere, keys]
  simp only [of, Table.removeAll_filter distinct, Table.contains_of, Prod.mk.injEq, mk.injEq,
    true_and, and_true]
  rw [Store.keys, Store.keys, List.filter_map]
  congr 1
  apply List.filter_congr
  intro item mem
  rw [Function.comp_apply, Bool.eq_iff_iff, Store.contains_iff]
  exact Store.key_mem_map_filter_iff distinct mem

end Shelf

end CodeAtlas
