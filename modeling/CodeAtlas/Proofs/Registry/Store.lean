import CodeAtlas.Registry.Store
import Mathlib.Data.List.Nodup
import Mathlib.Data.List.Perm.Basic

/-!
# Laws of stores

A store is a list whose things carry their own key.  As long as no key stands
twice, the list serves as an order and as a map at once: a lookup finds exactly
the listed thing with that key, and a change touches exactly that thing.
-/

namespace CodeAtlas.Store

variable {α β : Type} [Keyed α] {store : Store α} {key : String} {item : α} {ids : List String}
  {change : α → α} {other : String}

/-! ## Lookup -/

theorem mem_keys_iff : key ∈ store.keys ↔ ∃ item ∈ store.items, Keyed.key item = key := by
  simp [keys]

theorem key_mem_keys (mem : item ∈ store.items) : Keyed.key item ∈ store.keys :=
  mem_keys_iff.mpr ⟨item, mem, rfl⟩

theorem contains_iff : store.contains key = true ↔ key ∈ store.keys := by
  simp [contains, mem_keys_iff]

theorem contains_eq_false_iff : store.contains key = false ↔ key ∉ store.keys := by
  rw [← contains_iff, Bool.not_eq_true]

theorem mem_of_get? (found : store.get? key = some item) : item ∈ store.items :=
  List.mem_of_find?_eq_some found

theorem key_of_get? (found : store.get? key = some item) : Keyed.key item = key := by
  simpa using List.find?_some found

theorem get?_eq_none_iff : store.get? key = none ↔ key ∉ store.keys := by
  simp [get?, mem_keys_iff]

theorem exists_get? (mem : key ∈ store.keys) : ∃ item, store.get? key = some item := by
  cases found : store.get? key with
  | none => exact absurd mem (get?_eq_none_iff.mp found)
  | some item => exact ⟨item, rfl⟩

theorem mem_keys_of_get? (found : store.get? key = some item) : key ∈ store.keys :=
  mem_keys_iff.mpr ⟨item, mem_of_get? found, key_of_get? found⟩

/-- Where no key stands twice, things with one key are the same thing. -/
theorem eq_of_key_eq {other : α} (distinct : store.keys.Nodup) (mem : item ∈ store.items)
    (otherMem : other ∈ store.items) (same : Keyed.key item = Keyed.key other) : item = other :=
  List.inj_on_of_nodup_map distinct mem otherMem same

theorem get?_of_mem (distinct : store.keys.Nodup) (mem : item ∈ store.items) :
    store.get? (Keyed.key item) = some item := by
  obtain ⟨found, lookup⟩ := exists_get? (key_mem_keys mem)
  rw [lookup, eq_of_key_eq distinct (mem_of_get? lookup) mem (key_of_get? lookup)]

theorem get?_eq_some_iff (distinct : store.keys.Nodup) :
    store.get? key = some item ↔ item ∈ store.items ∧ Keyed.key item = key := by
  constructor
  · intro found
    exact ⟨mem_of_get? found, key_of_get? found⟩
  · rintro ⟨mem, rfl⟩
    exact get?_of_mem distinct mem

/-- Looking up known keys finds things with these keys. -/
theorem map_key_filterMap_get? (known : ∀ id ∈ ids, id ∈ store.keys) :
    (ids.filterMap store.get?).map Keyed.key = ids := by
  induction ids with
  | nil => rfl
  | cons id rest ih =>
    obtain ⟨item, found⟩ := exists_get? (known id List.mem_cons_self)
    rw [List.filterMap_cons_some found, List.map_cons, key_of_get? found,
      ih fun id mem => known id (List.mem_cons_of_mem _ mem)]

/-- Where no key stands twice, only the thing itself has its key. -/
theorem others_of_split {before after : List α} (distinct : store.keys.Nodup)
    (split : store.items = before ++ item :: after) :
    ∀ other ∈ before ++ after, Keyed.key other ≠ Keyed.key item := by
  rw [keys, split, List.map_append, List.map_cons] at distinct
  intro other otherMem same
  apply (List.nodup_middle.mp distinct).notMem
  rw [← List.map_append, ← same]
  exact List.mem_map_of_mem otherMem

/-- A stored thing cuts the order in two parts that do not have its key. -/
theorem exists_split (distinct : store.keys.Nodup) (found : store.get? key = some item) :
    ∃ before after, store.items = before ++ item :: after ∧
      ∀ other ∈ before ++ after, Keyed.key other ≠ key := by
  obtain ⟨before, after, split⟩ := List.append_of_mem (mem_of_get? found)
  exact ⟨before, after, split, key_of_get? found ▸ others_of_split distinct split⟩

/-! ## Changes -/

/-- A change that keeps the key of every thing keeps the keys. -/
theorem keys_modify (keepsKey : ∀ item, Keyed.key item = key → Keyed.key (change item) = key) :
    (store.modify key change).keys = store.keys := by
  simp only [keys, modify, List.map_map]
  apply List.map_congr_left
  intro item _
  by_cases same : Keyed.key item = key
  · simp [same, keepsKey item same]
  · simp [same]

theorem mem_modify {changed : α} :
    changed ∈ (store.modify key change).items ↔
      (∃ item ∈ store.items, Keyed.key item = key ∧ changed = change item) ∨
        changed ∈ store.items ∧ Keyed.key changed ≠ key := by
  simp only [modify, List.mem_map, beq_iff_eq]
  constructor
  · rintro ⟨item, mem, rfl⟩
    by_cases same : Keyed.key item = key
    · exact Or.inl ⟨item, mem, same, by simp [same]⟩
    · exact Or.inr (by simpa [same] using mem)
  · rintro (⟨item, mem, same, rfl⟩ | ⟨mem, other⟩)
    · exact ⟨item, mem, by simp [same]⟩
    · exact ⟨changed, mem, by simp [other]⟩

/-- A change that keeps the key of what it touches is seen at that key only. -/
theorem get?_modify (keepsKey : ∀ item, Keyed.key item = key → Keyed.key (change item) = key) :
    (store.modify key change).get? other =
      if other = key then (store.get? other).map change else store.get? other := by
  have sameKey : ∀ item : α,
      Keyed.key (if Keyed.key item == key then change item else item) = Keyed.key item := by
    intro item
    by_cases hit : Keyed.key item = key
    · simp [hit, keepsKey item hit]
    · simp [hit]
  have found : (store.modify key change).get? other =
      (store.get? other).map fun item => if Keyed.key item == key then change item else item := by
    simp only [get?, modify, List.find?_map, Function.comp_def, sameKey]
  rw [found]
  cases lookup : store.get? other with
  | none => simp
  | some item =>
    by_cases hit : other = key
    · simp [hit, key_of_get? lookup]
    · simp [hit, key_of_get? lookup]

theorem modify_of_not_mem (absent : key ∉ store.keys) :
    store.modify key change = store := by
  rcases store with ⟨items⟩
  simp only [modify, mk.injEq]
  conv_rhs => rw [← List.map_id items]
  apply List.map_congr_left
  intro item mem
  have different : Keyed.key item ≠ key := fun same => absent (same ▸ key_mem_keys mem)
  simp [different]

theorem items_modify_of_split {before after : List α}
    (split : store.items = before ++ item :: after) (same : Keyed.key item = key)
    (others : ∀ other ∈ before ++ after, Keyed.key other ≠ key) :
    (store.modify key change).items = before ++ change item :: after := by
  have untouched : ∀ part : List α, (∀ other ∈ part, Keyed.key other ≠ key) →
      part.map (fun item => if Keyed.key item == key then change item else item) = part := by
    intro part absent
    conv_rhs => rw [← List.map_id part]
    apply List.map_congr_left
    intro other mem
    simp [absent other mem]
  rw [modify, split, List.map_append, List.map_cons,
    untouched before fun other mem => others other (List.mem_append_left after mem),
    untouched after fun other mem => others other (List.mem_append_right before mem)]
  simp [same]

theorem items_insert_of_new (new : Keyed.key item ∉ store.keys) :
    (store.insert item).items = store.items ++ [item] := by
  rw [insert, if_neg]
  rwa [contains_iff]

theorem keys_insert_of_new (new : Keyed.key item ∉ store.keys) :
    (store.insert item).keys = store.keys ++ [Keyed.key item] := by
  simp only [keys, items_insert_of_new new, List.map_append, List.map_cons, List.map_nil]

theorem nodup_keys_insert (distinct : store.keys.Nodup) (new : Keyed.key item ∉ store.keys) :
    (store.insert item).keys.Nodup := by
  rw [keys_insert_of_new new]
  exact distinct.append (List.nodup_singleton _) (by simpa using new)

theorem mem_insert_of_new {old : α} (new : Keyed.key item ∉ store.keys) :
    old ∈ (store.insert item).items ↔ old ∈ store.items ∨ old = item := by
  rw [items_insert_of_new new, List.mem_append, List.mem_singleton]

theorem get?_insert_of_mem {known : String} (new : Keyed.key item ∉ store.keys)
    (mem : known ∈ store.keys) : (store.insert item).get? known = store.get? known := by
  obtain ⟨found, lookup⟩ := exists_get? mem
  rw [get?, items_insert_of_new new, List.find?_append]
  simp only [get?] at lookup
  rw [lookup, Option.some_or, get?, lookup]

theorem mem_insert {other : α} :
    other ∈ (store.insert item).items ↔
      other = item ∨ other ∈ store.items ∧ Keyed.key other ≠ Keyed.key item := by
  unfold insert
  split
  · next known =>
      obtain ⟨old, oldMem, oldKey⟩ := mem_keys_iff.mp (contains_iff.mp known)
      rw [mem_modify]
      constructor
      · rintro (⟨_, _, _, rfl⟩ | kept)
        · exact Or.inl rfl
        · exact Or.inr kept
      · rintro (rfl | kept)
        · exact Or.inl ⟨old, oldMem, oldKey, rfl⟩
        · exact Or.inr kept
  · next unknown =>
      have new : Keyed.key item ∉ store.keys := fun mem => unknown (contains_iff.mpr mem)
      rw [List.mem_append, List.mem_singleton, or_comm]
      refine or_congr_right (iff_self_and.mpr ?_)
      intro mem same
      exact new (same ▸ key_mem_keys mem)

theorem eq_or_mem_of_mem_insert {new : α} (mem : item ∈ (store.insert new).items) :
    item = new ∨ item ∈ store.items :=
  (mem_insert.mp mem).imp_right And.left

theorem insert_of_unique (mem : item ∈ store.items)
    (unique : ∀ other ∈ store.items, Keyed.key other = Keyed.key item → other = item) :
    store.insert item = store := by
  have same : (store.items.map fun other =>
      if Keyed.key other == Keyed.key item then item else other) = store.items.map id := by
    apply List.map_congr_left
    intro other otherMem
    split
    · next sameKey => exact (unique other otherMem (by simpa using sameKey)).symm
    · rfl
  rw [insert, if_pos (contains_iff.mpr (key_mem_keys mem)), modify, same, List.map_id]

theorem mem_erase : item ∈ (store.erase key).items ↔ item ∈ store.items ∧ Keyed.key item ≠ key := by
  simp [erase]

theorem mem_keys_erase :
    other ∈ (store.erase key).keys ↔ other ∈ store.keys ∧ other ≠ key := by
  simp only [mem_keys_iff, mem_erase]
  constructor
  · rintro ⟨item, ⟨mem, different⟩, rfl⟩
    exact ⟨⟨item, mem, rfl⟩, different⟩
  · rintro ⟨⟨item, mem, rfl⟩, different⟩
    exact ⟨item, ⟨mem, different⟩, rfl⟩

theorem items_erase_of_split {before after : List α}
    (split : store.items = before ++ item :: after) (same : Keyed.key item = key)
    (others : ∀ other ∈ before ++ after, Keyed.key other ≠ key) :
    (store.erase key).items = before ++ after := by
  have kept : (before ++ after).filter (fun item => Keyed.key item != key) = before ++ after :=
    List.filter_eq_self.mpr fun other mem => by simpa using others other mem
  rw [erase, split, List.filter_append, List.filter_cons_of_neg (by simp [same]),
    ← List.filter_append, kept]

theorem keys_erase_sublist : (store.erase key).keys.Sublist store.keys :=
  List.filter_sublist.map _

theorem get?_erase_of_ne (different : other ≠ key) :
    (store.erase key).get? other = store.get? other := by
  rcases store with ⟨items⟩
  simp only [get?, erase, List.find?_filter]
  congr 1
  funext item
  by_cases same : Keyed.key item = other
  · simp [same, different]
  · simp [same]

theorem get?_foldl_erase_of_not_mem (absent : other ∉ ids) :
    (ids.foldl erase store).get? other = store.get? other := by
  induction ids generalizing store with
  | nil => rfl
  | cons first rest ih =>
    rw [List.foldl_cons, ih (List.not_mem_of_not_mem_cons absent),
      get?_erase_of_ne (List.ne_of_not_mem_cons absent)]

theorem items_foldl_erase (ids : List String) :
    (ids.foldl erase store).items =
      store.items.filter fun item => !ids.contains (Keyed.key item) := by
  induction ids generalizing store with
  | nil => simp
  | cons first rest ih =>
    rw [List.foldl_cons, ih, erase, List.filter_filter]
    apply List.filter_congr
    intro item _
    by_cases same : Keyed.key item = first <;> simp [same]

theorem mem_foldl_erase :
    item ∈ (ids.foldl erase store).items ↔ item ∈ store.items ∧ Keyed.key item ∉ ids := by
  simp [items_foldl_erase]

theorem mem_keys_foldl_erase :
    other ∈ (ids.foldl erase store).keys ↔ other ∈ store.keys ∧ other ∉ ids := by
  induction ids generalizing store with
  | nil => simp
  | cons first rest ih =>
    rw [List.foldl_cons, ih, mem_keys_erase, List.mem_cons, not_or, and_assoc]

theorem keys_foldl_erase_sublist :
    (ids.foldl erase store).keys.Sublist store.keys := by
  induction ids generalizing store with
  | nil => exact List.Sublist.refl _
  | cons first rest ih =>
    exact ih.trans keys_erase_sublist

/-! ## Parts of the whole -/

/-- What the things of a store contribute falls into the part of one thing and
the part of all others; a change and an erasure touch only the former. -/
theorem exists_flatMap_rest (distinct : store.keys.Nodup) (found : store.get? key = some item)
    (part : α → List β) :
    ∃ rest, (store.items.flatMap part).Perm (part item ++ rest) ∧
      (∀ change : α → α,
        ((store.modify key change).items.flatMap part).Perm (part (change item) ++ rest)) ∧
      (store.erase key).items.flatMap part = rest := by
  obtain ⟨before, after, split, others⟩ := exists_split distinct found
  have same := key_of_get? found
  have swap : ∀ middle : List β,
      (before.flatMap part ++ (middle ++ after.flatMap part)).Perm
        (middle ++ (before ++ after).flatMap part) := by
    intro middle
    rw [List.flatMap_append, ← List.append_assoc, ← List.append_assoc]
    exact List.perm_append_comm.append_right _
  refine ⟨(before ++ after).flatMap part, ?_, ?_, ?_⟩
  · rw [split, List.flatMap_append, List.flatMap_cons]
    exact swap (part item)
  · intro change
    rw [items_modify_of_split split same others, List.flatMap_append, List.flatMap_cons]
    exact swap (part (change item))
  · rw [items_erase_of_split split same others]

theorem perm_flatMap_insert (new : Keyed.key item ∉ store.keys) (part : α → List β) :
    ((store.insert item).items.flatMap part).Perm (part item ++ store.items.flatMap part) := by
  rw [items_insert_of_new new, List.flatMap_append, List.flatMap_singleton]
  exact List.perm_append_comm

/-- Things looked up by different known keys and the things left without them
make up the store. -/
theorem perm_filterMap_append_foldl_erase (distinct : store.keys.Nodup) (different : ids.Nodup)
    (known : ∀ id ∈ ids, id ∈ store.keys) :
    store.items.Perm (ids.filterMap store.get? ++ (ids.foldl erase store).items) := by
  induction ids generalizing store with
  | nil => exact List.Perm.refl _
  | cons first rest ih =>
    obtain ⟨firstAbsent, restDifferent⟩ := List.nodup_cons.mp different
    obtain ⟨item, found⟩ := exists_get? (known first List.mem_cons_self)
    obtain ⟨before, after, split, others⟩ := exists_split distinct found
    have sameLookup : ∀ id ∈ rest, (store.erase first).get? id = store.get? id :=
      fun id mem => get?_erase_of_ne fun same => firstAbsent (same ▸ mem)
    have stillKnown : ∀ id ∈ rest, id ∈ (store.erase first).keys := by
      intro id mem
      obtain ⟨other, otherFound⟩ := exists_get? (known id (List.mem_cons_of_mem _ mem))
      exact mem_keys_of_get? ((sameLookup id mem).trans otherFound)
    have restPerm :=
      ih (distinct.sublist keys_erase_sublist) restDifferent stillKnown
    rw [List.filterMap_congr sameLookup,
      items_erase_of_split split (key_of_get? found) others] at restPerm
    rw [List.filterMap_cons_some found, List.foldl_cons, split]
    exact List.perm_middle.trans (restPerm.cons item)

end CodeAtlas.Store
