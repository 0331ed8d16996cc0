import CodeAtlas.Proofs.PoolContents

/-!
# The history of a pool

Whatever happens to a pool is a sequence of actions.  Along the way numbers are
given out one after the other, without gaps and without repetition.  A number
that was given out and names nothing will never name anything again, and a label
stays the same as long as it is live.
-/

namespace CodeAtlas

namespace Pool

variable {R : Type} {pool middle next : Pool R} {id : ResourceId}

/-- The numbers that actions give out, the first one first. -/
def given (pool : Pool R) : List (Action R) → List ResourceId
  | [] => []
  | .allocate resource :: rest =>
    (pool.allocate resource).1 :: (pool.allocate resource).2.given rest
  | action :: rest => (pool.act action).given rest

theorem lastId_replaceShape (pool : Pool R) (id : ResourceId) (points : List (Vec R)) :
    (pool.replaceShape id points).2.lastId = pool.lastId := by
  unfold replaceShape
  split <;> rfl

/-- Numbers are given out in order and without gaps. -/
theorem given_eq_range' (pool : Pool R) (actions : List (Action R)) :
    ∃ count, (pool.replay actions).lastId = pool.lastId + count ∧
      pool.given actions = List.range' (pool.lastId + 1) count := by
  induction actions generalizing pool with
  | nil => exact ⟨0, rfl, rfl⟩
  | cons action rest ih =>
    obtain ⟨count, last, numbers⟩ := ih (pool.act action)
    cases action with
    | allocate resource =>
      refine ⟨count + 1, ?_, ?_⟩
      · exact last.trans (Nat.add_right_comm _ _ _)
      · rw [List.range'_succ]
        exact congrArg (_ :: ·) numbers
    | redraw id points =>
      have same : (pool.act (.redraw id points)).lastId = pool.lastId :=
        pool.lastId_replaceShape id points
      rw [same] at last numbers
      exact ⟨count, last, numbers⟩
    | release id => exact ⟨count, last, numbers⟩
    | clear => exact ⟨count, last, numbers⟩

theorem pairwise_given (pool : Pool R) (actions : List (Action R)) :
    (pool.given actions).Pairwise (· < ·) := by
  obtain ⟨count, _, numbers⟩ := pool.given_eq_range' actions
  rw [numbers]
  exact List.pairwise_lt_range'

theorem mem_given_iff {actions : List (Action R)} :
    id ∈ pool.given actions ↔ pool.lastId < id ∧ id ≤ (pool.replay actions).lastId := by
  obtain ⟨count, last, numbers⟩ := pool.given_eq_range' actions
  rw [numbers, last, List.mem_range'_1, Nat.add_right_comm, Nat.lt_succ_iff, Nat.succ_le_iff]

/-! ## Pools that come from each other -/

/-- Some actions make the one pool into the other. -/
def Becomes (pool next : Pool R) : Prop :=
  ∃ actions, pool.replay actions = next

theorem Evolves.becomes {redrawn : List Slot} (evolves : pool.Evolves next redrawn) :
    pool.Becomes next := by
  obtain ⟨actions, _, replayed⟩ := evolves
  exact ⟨actions, replayed⟩

theorem Becomes.refl (pool : Pool R) : pool.Becomes pool :=
  ⟨[], rfl⟩

theorem becomes_act (pool : Pool R) (action : Action R) : pool.Becomes (pool.act action) :=
  ⟨[action], rfl⟩

theorem Becomes.trans (first : pool.Becomes middle) (second : middle.Becomes next) :
    pool.Becomes next := by
  obtain ⟨earlier, rfl⟩ := first
  obtain ⟨later, rfl⟩ := second
  exact ⟨earlier ++ later, List.foldl_append⟩

/-- All that actions draw anew are shapes. -/
theorem Becomes.exists_keeps (becomes : pool.Becomes next) :
    ∃ redrawn : List Slot, pool.Keeps next redrawn ∧ ∀ id, (id, .label) ∉ redrawn := by
  obtain ⟨actions, replayed⟩ := becomes
  have evolves : pool.Evolves next (actions.flatMap Action.redraws) :=
    ⟨actions, fun action mem slot own => List.mem_flatMap.mpr ⟨action, mem, own⟩, replayed⟩
  refine ⟨_, evolves.keeps, ?_⟩
  intro id mem
  obtain ⟨action, _, own⟩ := List.mem_flatMap.mp mem
  cases action <;> simp [Action.redraws] at own

theorem Becomes.numbers (becomes : pool.Becomes next) : pool.lastId ≤ next.lastId := by
  obtain ⟨_, keeps, _⟩ := becomes.exists_keeps
  exact keeps.numbers

/-- What is gone stays gone. -/
theorem Becomes.contains_eq_false (becomes : pool.Becomes next) (given : id ≤ pool.lastId)
    (gone : pool.contains id = false) : next.contains id = false := by
  obtain ⟨_, keeps, _⟩ := becomes.exists_keeps
  cases found : next.get? id with
  | none => simp [contains, found]
  | some resource =>
    obtain ⟨old, oldFound, _⟩ := keeps.kept id given resource found
    simp [contains, oldFound] at gone

theorem label?_eq_some_iff {bitmap : LabelBitmap} :
    pool.label? id = some bitmap ↔ pool.get? id = some (.label bitmap) := by
  unfold label?
  rcases pool.get? id with _ | (_ | _) <;> simp

/-- A label stays the same as long as it is live. -/
theorem Becomes.label?_of_contains (becomes : pool.Becomes next) (given : id ≤ pool.lastId)
    {bitmap : LabelBitmap} (label : pool.label? id = some bitmap)
    (live : next.contains id = true) : next.label? id = some bitmap := by
  obtain ⟨_, keeps, labelsApart⟩ := becomes.exists_keeps
  obtain ⟨resource, found⟩ := Option.isSome_iff_exists.mp live
  obtain ⟨old, oldFound, _, same⟩ := keeps.kept id given resource found
  rw [label?_eq_some_iff] at label ⊢
  obtain rfl : old = .label bitmap := Option.some.inj (oldFound.symm.trans label)
  rw [found, same (labelsApart id)]

theorem Holds.le_lastId {slots : List Slot} (holds : pool.Holds slots)
    (live : pool.contains id = true) : id ≤ pool.lastId := by
  obtain ⟨resource, found⟩ := Option.isSome_iff_exists.mp live
  have mem : (id, resource.kind) ∈ slots := holds.get?_iff.mp (by rw [found]; rfl)
  exact holds.bound _ mem

end Pool

end CodeAtlas
