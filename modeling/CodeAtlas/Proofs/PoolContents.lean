import CodeAtlas.Proofs.Pool

/-!
# What numbers stand for

A pool changes by few kinds of actions.  Numbers of resources are never given
out twice, and only shapes are replaced in place.  So a number keeps standing
for the resource that it was given out for, live or not, unless its slot is
drawn anew.  Together with custody this tells which resource a slot holds.
-/

namespace CodeAtlas

theorem Slot.mem_filled_iff {slot : Slot} {kind : ResourceKind} {resource : Option ResourceId} :
    slot ∈ Slot.filled kind resource ↔ slot.1 ∈ resource ∧ slot.2 = kind := by
  rcases slot with ⟨id, slotKind⟩
  cases resource with
  | none => simp
  | some filled => simp [eq_comm]

namespace Pool

variable {R : Type} {pool middle next : Pool R} {redrawn slots : List Slot} {id : ResourceId}
  {resource : Resource R}

/-! ## Lookup after a change -/

theorem lookup_cons_of_ne {β : Type} {key : ResourceId} {value : β}
    {rest : List (ResourceId × β)} (different : id ≠ key) :
    ((key, value) :: rest).lookup id = rest.lookup id := by
  rw [List.lookup_cons, beq_false_of_ne different]

theorem get?_allocate_of_le (resource : Resource R) (old : id ≤ pool.lastId) :
    (pool.allocate resource).2.get? id = pool.get? id :=
  lookup_cons_of_ne (Nat.ne_of_lt (Nat.lt_succ_of_le old))

/-- Entries that are kept by their numbers are looked up as before. -/
theorem lookup_filter_fst {β : Type} (pairs : List (ResourceId × β)) (keep : ResourceId → Bool)
    (id : ResourceId) :
    (pairs.filter fun pair => keep pair.1).lookup id =
      if keep id then pairs.lookup id else none := by
  induction pairs with
  | nil => simp
  | cons first rest ih =>
    rcases first with ⟨key, value⟩
    by_cases hit : id = key
    · subst hit
      by_cases kept : keep id = true
      · simp [kept]
      · simp [kept, ih]
    · by_cases kept : keep key = true
      · rw [List.filter_cons_of_pos (by simpa using kept), lookup_cons_of_ne hit,
          lookup_cons_of_ne hit, ih]
      · rw [List.filter_cons_of_neg (by simpa using kept), lookup_cons_of_ne hit, ih]

theorem get?_release (pool : Pool R) (id released : ResourceId) :
    (pool.release released).get? id = if id = released then none else pool.get? id := by
  have filtered : (pool.release released).get? id =
      if decide (id ≠ released) then pool.get? id else none :=
    lookup_filter_fst pool.entries (fun key => decide (key ≠ released)) id
  rw [filtered]
  by_cases same : id = released <;> simp [same]

theorem get?_put (pool : Pool R) (id replaced : ResourceId) (resource : Resource R) :
    (pool.put replaced resource).get? id =
      if id = replaced then (pool.get? id).map fun _ => resource else pool.get? id := by
  rcases pool with ⟨lastId, entries⟩
  simp only [get?, put]
  induction entries with
  | nil => simp
  | cons first rest ih =>
    rcases first with ⟨key, value⟩
    rw [List.map_cons]
    by_cases changed : key = replaced
    · subst changed
      rw [if_pos rfl]
      by_cases hit : id = key
      · rw [if_pos hit, hit, List.lookup_cons_self, List.lookup_cons_self, Option.map_some]
      · rw [lookup_cons_of_ne hit, lookup_cons_of_ne hit, ih]
    · rw [if_neg changed]
      by_cases hit : id = key
      · rw [hit, List.lookup_cons_self, List.lookup_cons_self, if_neg changed]
      · rw [lookup_cons_of_ne hit, lookup_cons_of_ne hit, ih]

theorem exists_of_shape?_isSome (live : (pool.shape? id).isSome = true) :
    ∃ points, pool.get? id = some (.shape points) := by
  rw [shape?_isSome_iff] at live
  obtain ⟨resource, found, kind⟩ := Option.map_eq_some_iff.mp live
  cases resource with
  | label bitmap => cases kind
  | shape points => exact ⟨points, found⟩

/-! ## Actions -/

/-- All that can happen to a pool.  Only shapes are replaced in place. -/
inductive Action (R : Type) where
  | allocate (resource : Resource R)
  | redraw (id : ResourceId) (points : List (Vec R))
  | release (id : ResourceId)
  | clear

/-- The slots that an action draws anew. -/
def Action.redraws : Action R → List Slot
  | .redraw id _ => [(id, .shape)]
  | _ => []

def act (pool : Pool R) : Action R → Pool R
  | .allocate resource => (pool.allocate resource).2
  | .redraw id points => (pool.replaceShape id points).2
  | .release id => pool.release id
  | .clear => pool.clear

/-- The pool after actions, the first one first. -/
def replay (pool : Pool R) (actions : List (Action R)) : Pool R :=
  actions.foldl act pool

/-- From a pool to a later one: numbers that were given out stay given out, and
what an old number names it has named before, unless its slot was drawn anew;
then it has at least named something of the same kind. -/
structure Keeps (pool next : Pool R) (redrawn : List Slot) : Prop where
  numbers : pool.lastId ≤ next.lastId
  kept : ∀ id ≤ pool.lastId, ∀ resource, next.get? id = some resource →
    ∃ old, pool.get? id = some old ∧ old.kind = resource.kind ∧
      ((id, old.kind) ∉ redrawn → old = resource)

/-- Nothing is replaced where every old number is looked up as before or names
nothing any more. -/
theorem keeps_of_get? (numbers : pool.lastId ≤ next.lastId)
    (kept : ∀ id ≤ pool.lastId, next.get? id = none ∨ next.get? id = pool.get? id) :
    pool.Keeps next redrawn := by
  refine ⟨numbers, ?_⟩
  intro id old resource found
  rcases kept id old with gone | same
  · rw [gone] at found
    cases found
  · exact ⟨resource, same ▸ found, rfl, fun _ => rfl⟩

theorem Keeps.trans (first : pool.Keeps middle redrawn) (second : middle.Keeps next redrawn) :
    pool.Keeps next redrawn := by
  refine ⟨Nat.le_trans first.numbers second.numbers, ?_⟩
  intro id old resource found
  obtain ⟨between, betweenFound, betweenKind, betweenSame⟩ :=
    second.kept id (Nat.le_trans old first.numbers) resource found
  obtain ⟨start, startFound, startKind, startSame⟩ := first.kept id old between betweenFound
  refine ⟨start, startFound, startKind.trans betweenKind, ?_⟩
  intro notRedrawn
  exact (startSame notRedrawn).trans (betweenSame (startKind ▸ notRedrawn))

theorem keeps_redraw (pool : Pool R) (points : List (Vec R)) (listed : (id, .shape) ∈ redrawn) :
    pool.Keeps (pool.replaceShape id points).2 redrawn := by
  unfold replaceShape
  split
  · next live =>
      obtain ⟨before, beforeFound⟩ := exists_of_shape?_isSome live
      refine ⟨Nat.le_refl _, ?_⟩
      intro other _ resource found
      rw [get?_put] at found
      by_cases same : other = id
      · subst same
        rw [if_pos rfl, beforeFound] at found
        cases found
        exact ⟨_, beforeFound, rfl, fun apart => absurd listed apart⟩
      · rw [if_neg same] at found
        exact ⟨resource, found, rfl, fun _ => rfl⟩
  · exact keeps_of_get? (Nat.le_refl _) fun _ _ => Or.inr rfl

theorem keeps_act (pool : Pool R) (action : Action R)
    (listed : ∀ slot ∈ action.redraws, slot ∈ redrawn) : pool.Keeps (pool.act action) redrawn := by
  cases action with
  | allocate resource =>
    exact keeps_of_get? (Nat.le_succ _) fun _ old => Or.inr (get?_allocate_of_le resource old)
  | redraw id points => exact keeps_redraw pool points (listed _ List.mem_cons_self)
  | release id =>
    change pool.Keeps (pool.release id) redrawn
    apply keeps_of_get?
    · exact Nat.le_refl _
    intro other _
    rw [get?_release]
    by_cases same : other = id
    · exact Or.inl (if_pos same)
    · exact Or.inr (if_neg same)
  | clear => exact keeps_of_get? (Nat.le_refl _) fun _ _ => Or.inl rfl

/-! ## Evolution -/

/-- A pool becomes another by actions that draw only the given slots anew. -/
def Evolves (pool next : Pool R) (redrawn : List Slot) : Prop :=
  ∃ actions : List (Action R),
    (∀ action ∈ actions, ∀ slot ∈ action.redraws, slot ∈ redrawn) ∧ pool.replay actions = next

theorem Evolves.keeps (evolves : pool.Evolves next redrawn) : pool.Keeps next redrawn := by
  obtain ⟨actions, listed, rfl⟩ := evolves
  exact List.foldlRecOn (motive := fun (reached : Pool R) => pool.Keeps reached redrawn) actions act
    (keeps_of_get? (Nat.le_refl _) fun _ _ => Or.inr rfl)
    fun reached before action mem => before.trans (keeps_act reached action (listed action mem))

theorem Evolves.numbers (evolves : pool.Evolves next redrawn) : pool.lastId ≤ next.lastId :=
  evolves.keeps.numbers

theorem Evolves.refl (pool : Pool R) : pool.Evolves pool redrawn :=
  ⟨[], by simp, rfl⟩

theorem Evolves.trans (first : pool.Evolves middle redrawn)
    (second : middle.Evolves next redrawn) : pool.Evolves next redrawn := by
  obtain ⟨earlier, earlierListed, rfl⟩ := first
  obtain ⟨later, laterListed, rfl⟩ := second
  refine ⟨earlier ++ later, ?_, List.foldl_append⟩
  intro action mem
  rcases List.mem_append.mp mem with inEarlier | inLater
  · exact earlierListed action inEarlier
  · exact laterListed action inLater

theorem Evolves.weaken (evolves : pool.Evolves next []) (redrawn : List Slot) :
    pool.Evolves next redrawn := by
  obtain ⟨actions, listed, replayed⟩ := evolves
  exact ⟨actions, fun action mem slot own => absurd (listed action mem slot own) List.not_mem_nil,
    replayed⟩

theorem evolves_foldl {α : Type} (items : List α) {step : Pool R → α → Pool R}
    (evolves : ∀ (pool : Pool R), ∀ item ∈ items, pool.Evolves (step pool item) redrawn)
    (pool : Pool R) : pool.Evolves (items.foldl step pool) redrawn :=
  List.foldlRecOn (motive := fun (reached : Pool R) => pool.Evolves reached redrawn) items step
    (Evolves.refl pool) fun reached before item mem => before.trans (evolves reached item mem)

theorem evolves_act (pool : Pool R) (action : Action R)
    (listed : ∀ slot ∈ action.redraws, slot ∈ redrawn) :
    pool.Evolves (pool.act action) redrawn :=
  ⟨[action], by simpa using listed, rfl⟩

theorem evolves_allocate (pool : Pool R) (resource : Resource R) :
    pool.Evolves (pool.allocate resource).2 redrawn :=
  evolves_act pool (.allocate resource) (by simp [Action.redraws])

theorem evolves_release (pool : Pool R) (id : ResourceId) :
    pool.Evolves (pool.release id) redrawn :=
  evolves_act pool (.release id) (by simp [Action.redraws])

theorem evolves_releaseSlot (pool : Pool R) (slot : Option ResourceId) :
    pool.Evolves (pool.releaseSlot slot) redrawn := by
  cases slot with
  | none => exact Evolves.refl pool
  | some id => exact evolves_release pool id

theorem evolves_releaseSlots {α : Type} (owners : List α) (slot : α → Option ResourceId)
    (pool : Pool R) :
    pool.Evolves (owners.foldl (fun pool owner => pool.releaseSlot (slot owner)) pool) redrawn :=
  evolves_foldl owners (fun pool owner _ => evolves_releaseSlot pool (slot owner)) pool

theorem evolves_releaseAll (pool : Pool R) (ids : List ResourceId) :
    pool.Evolves (pool.releaseAll ids) redrawn :=
  evolves_foldl ids (fun pool id _ => evolves_release pool id) pool

/-- Filling a slot with a shape redraws that slot only. -/
theorem evolves_upsertShape (pool : Pool R) (slot : Option ResourceId) (points : List (Vec R))
    (listed : ∀ filled ∈ Slot.filled .shape slot, filled ∈ redrawn) :
    pool.Evolves (pool.upsertShape slot points).2 redrawn := by
  unfold upsertShape
  cases slot with
  | none => exact evolves_allocate pool _
  | some id =>
    dsimp only
    split
    · next live =>
        have redrawnEq : pool.act (.redraw id points) = pool.put id (.shape points) := by
          simp [act, replaceShape, live]
        exact redrawnEq ▸ evolves_act pool (.redraw id points) listed
    · exact evolves_allocate pool _

/-! ## Names -/

/-- The number is given out and stands for nothing but this resource. -/
structure Names (pool : Pool R) (id : ResourceId) (resource : Resource R) : Prop where
  given : id ≤ pool.lastId
  only : ∀ found, pool.get? id = some found → found = resource

/-- A number keeps standing for its resource unless its slot is drawn anew. -/
theorem Names.evolve (names : pool.Names id resource) (evolves : pool.Evolves next redrawn)
    (apart : (id, resource.kind) ∉ redrawn) : next.Names id resource := by
  refine ⟨Nat.le_trans names.given evolves.numbers, ?_⟩
  intro found foundNext
  obtain ⟨old, oldFound, _, same⟩ := evolves.keeps.kept id names.given found foundNext
  obtain rfl := names.only old oldFound
  exact (same apart).symm

theorem names_allocate (pool : Pool R) (resource : Resource R) :
    (pool.allocate resource).2.Names (pool.allocate resource).1 resource := by
  refine ⟨Nat.le_refl _, ?_⟩
  intro found foundNew
  simp only [allocate, get?, List.lookup_cons, beq_self_eq_true] at foundNew
  exact (Option.some.inj foundNew).symm

theorem names_upsertShape {slot : Option ResourceId} (points : List (Vec R))
    (given : ∀ id ∈ slot, id ≤ pool.lastId) :
    (pool.upsertShape slot points).2.Names (pool.upsertShape slot points).1 (.shape points) := by
  unfold upsertShape
  cases slot with
  | none => exact names_allocate pool _
  | some id =>
    dsimp only
    split
    · next live =>
        obtain ⟨before, beforeFound⟩ := exists_of_shape?_isSome live
        refine ⟨given id rfl, ?_⟩
        intro found foundNext
        rw [get?_put, if_pos rfl, beforeFound] at foundNext
        exact (Option.some.inj foundNext).symm
    · exact names_allocate pool _

/-- A slot holds the resource that its number stands for. -/
theorem Holds.get?_of_names (holds : pool.Holds slots) (names : pool.Names id resource)
    (mem : (id, resource.kind) ∈ slots) : pool.get? id = some resource := by
  obtain ⟨found, foundLive, _⟩ := Option.map_eq_some_iff.mp (holds.get?_iff.mpr mem)
  rw [foundLive, names.only found foundLive]

theorem Holds.label?_of_names {bitmap : LabelBitmap} (holds : pool.Holds slots)
    (names : pool.Names id (.label bitmap)) (mem : (id, .label) ∈ slots) :
    pool.label? id = some bitmap := by
  rw [Pool.label?, holds.get?_of_names names mem]

theorem Holds.shape?_of_names {points : List (Vec R)} (holds : pool.Holds slots)
    (names : pool.Names id (.shape points)) (mem : (id, .shape) ∈ slots) :
    pool.shape? id = some points := by
  rw [Pool.shape?, holds.get?_of_names names mem]

end Pool

end CodeAtlas
