import CodeAtlas.Proofs.Calls

/-!
# Lanes and arrows of a call diagram

Arrows name their lanes by numbers, and clicks find the call of an arrow by its
number.  The numbers are looked up with defaults that would hide a wrong one.  On
a reachable map no default is ever taken: every class that a call touches has a
lane of its own, and every arrow has the number of its call.
-/

namespace CodeAtlas

/-! ## First appearances -/

/-- What comes earlier among the things that are kept comes earlier among all. -/
theorem idxOf_lt_of_filter {xs : List NodeId} {keep : NodeId → Bool} {first second : NodeId}
    (firstKept : keep first = true) (secondKept : keep second = true)
    (before : (xs.filter keep).idxOf first < (xs.filter keep).idxOf second) :
    xs.idxOf first < xs.idxOf second := by
  induction xs with
  | nil => simp at before
  | cons x rest ih =>
    by_cases kept : keep x = true
    · rw [List.filter_cons_of_pos kept] at before
      simp only [List.idxOf_cons, cond_eq_ite, beq_iff_eq] at before ⊢
      grind
    · have firstLater : x ≠ first := by
        rintro rfl
        exact kept firstKept
      have secondLater : x ≠ second := by
        rintro rfl
        exact kept secondKept
      rw [List.filter_cons_of_neg kept] at before
      simpa [List.idxOf_cons_ne, firstLater, secondLater] using ih before

/-- Without its repetitions a list stands in the order of first appearance. -/
theorem pairwise_eraseDups (xs : List NodeId) :
    xs.eraseDups.Pairwise fun first second => xs.idxOf first < xs.idxOf second := by
  -- The things after the first one are those of a shorter list, not of the tail.
  induction length : xs.length using Nat.strong_induction_on generalizing xs with
  | _ count ih =>
    cases xs with
    | nil => simp
    | cons x rest =>
      have shorter : (rest.filter fun other => !other == x).length < count := by
        rw [← length, List.length_cons, Nat.lt_succ_iff]
        exact List.length_filter_le _ _
      have later := ih _ shorter _ rfl
      have differs : ∀ other ∈ (rest.filter fun other => !other == x).eraseDups, x ≠ other := by
        simp only [List.mem_eraseDups, List.mem_filter]
        rintro other ⟨_, different⟩ rfl
        simp at different
      rw [List.eraseDups_cons, List.pairwise_cons]
      constructor
      · intro other mem
        simp [List.idxOf_cons_ne _ (differs other mem)]
      · refine later.imp_of_mem ?_
        intro first second firstMem secondMem before
        rw [List.idxOf_cons_ne _ (differs first firstMem),
          List.idxOf_cons_ne _ (differs second secondMem), Nat.succ_lt_succ_iff]
        apply idxOf_lt_of_filter _ _ before
        · simpa using (differs first firstMem).symm
        · simpa using (differs second secondMem).symm

/-! ## Lanes -/

/-- The classes that calls touch, the caller's before the target's. -/
def appearances (calls : List Call) : List NodeId :=
  calls.flatMap fun call => [call.callerClassId, call.targetClassId]

theorem mem_appearances_iff {calls : List Call} {classId : NodeId} :
    classId ∈ appearances calls ↔
      ∃ call ∈ calls, classId = call.callerClassId ∨ classId = call.targetClassId := by
  simp [appearances]

theorem mem_laneOrder_iff {rootClass classId : NodeId} {calls : List Call} :
    classId ∈ laneOrder rootClass calls ↔ classId = rootClass ∨
      ∃ call ∈ calls, classId = call.callerClassId ∨ classId = call.targetClassId := by
  rw [← mem_appearances_iff, laneOrder, List.mem_eraseDups, List.mem_cons, appearances]

theorem nodup_laneOrder (rootClass : NodeId) (calls : List Call) :
    (laneOrder rootClass calls).Nodup := by
  refine (pairwise_eraseDups _).imp ?_
  rintro first second before rfl
  exact Nat.lt_irrefl _ before

/-- The class of the root comes first, the others as they first appear. -/
theorem exists_laneOrder_cons (rootClass : NodeId) (calls : List Call) :
    ∃ others, laneOrder rootClass calls = rootClass :: others ∧
      others.Pairwise fun first second =>
        (appearances calls).idxOf first < (appearances calls).idxOf second := by
  have distinct := nodup_laneOrder rootClass calls
  have order := pairwise_eraseDups (rootClass :: appearances calls)
  change (laneOrder rootClass calls).Pairwise _ at order
  have split : laneOrder rootClass calls =
      rootClass :: ((appearances calls).filter fun other => !other == rootClass).eraseDups :=
    List.eraseDups_cons
  rw [split, List.nodup_cons] at distinct
  rw [split, List.pairwise_cons] at order
  refine ⟨_, split, order.2.imp_of_mem ?_⟩
  intro first second firstMem secondMem before
  have apart : ∀ other ∈ ((appearances calls).filter fun other => !other == rootClass).eraseDups,
      rootClass ≠ other := by
    rintro other mem rfl
    exact distinct.1 mem
  rwa [List.idxOf_cons_ne _ (apart first firstMem), List.idxOf_cons_ne _ (apart second secondMem),
    Nat.succ_lt_succ_iff] at before

/-! ## Arrows -/

variable {R : Type} [Scalar R] {reg : Registry R} {root : NodeId} {calls : List Call}

/-- The row of a call has the number of the call, starts at the lane of the
caller's class and ends at that of the target's class, and is drawn as a loop
exactly if these are one. -/
structure CallArrow.Joins (arrow : CallArrow R) (lanes : List (Lane R)) (index : Nat)
    (call : Call) : Prop where
  index : arrow.index = index
  source : ∃ lane, lanes[arrow.fromLane]? = some lane ∧ lane.classId = call.callerClassId ∧
    arrow.path.head?.map Vec.x = some lane.lifeline.1.x
  target : ∃ lane, lanes[arrow.toLane]? = some lane ∧ lane.classId = call.targetClassId ∧
    arrow.path.getLast?.map Vec.x = some lane.lifeline.1.x
  loop : arrow.isLoop = true ↔ call.callerClassId = call.targetClassId
  drawn : arrow.path.length = if arrow.isLoop then 4 else 2

namespace SequenceView

omit [Scalar R] in
/-- The lane of a class is found at the place of the class. -/
theorem exists_lane {lanes : List (Lane R)} {laneIds : List NodeId}
    (named : lanes.map Lane.classId = laneIds) {classId : NodeId} (mem : classId ∈ laneIds) :
    ∃ index lane, laneIds.idxOf? classId = some index ∧ lanes[index]? = some lane ∧
      lane.classId = classId := by
  have place : laneIds[laneIds.idxOf classId]? = some classId := by
    rw [List.getElem?_eq_getElem (List.idxOf_lt_length_of_mem mem), List.getElem_idxOf]
  rw [← named, List.getElem?_map, Option.map_eq_some_iff, named] at place
  rcases place with ⟨lane, found, same⟩
  have known : laneIds.idxOf? classId ≠ none := by
    simpa [List.idxOf?_eq_none_iff] using mem
  rcases Option.ne_none_iff_exists'.mp known with ⟨index, at_index⟩
  refine ⟨index, lane, at_index, ?_, same⟩
  rwa [List.idxOf_eq_getD_idxOf?, at_index] at found

variable {settings : SequenceSettings R} {text : TextMetrics R} {lanes : List (Lane R)}
  {laneIds : List NodeId}

theorem joins_arrow (named : lanes.map Lane.classId = laneIds) (index : Nat) {call : Call}
    (callerKnown : call.callerClassId ∈ laneIds) (targetKnown : call.targetClassId ∈ laneIds)
    (pool : Pool R) :
    (arrow settings text lanes laneIds index call pool).1.Joins lanes index call := by
  rcases exists_lane named callerKnown with ⟨source, sourceLane, sourceAt, sourceFound, sourceId⟩
  rcases exists_lane named targetKnown with ⟨target, targetLane, targetAt, targetFound, targetId⟩
  have same : source = target ↔ call.callerClassId = call.targetClassId := by
    constructor
    · rintro rfl
      rw [← sourceId, ← targetId, Option.some.inj (sourceFound.symm.trans targetFound)]
    · intro oneClass
      rw [oneClass, targetAt] at sourceAt
      exact (Option.some.inj sourceAt).symm
  simp only [arrow, sourceAt, targetAt, Option.getD_some, lifelineX, sourceFound, targetFound]
  split
  · next loop =>
      subst loop
      obtain rfl := Option.some.inj (sourceFound.symm.trans targetFound)
      constructor <;> simp_all [CallArrow.isLoop]
  · next straight => constructor <;> simp_all [CallArrow.isLoop]

/-- Every call of a list has its row at the same place. -/
theorem joins_arrowsFrom (named : lanes.map Lane.classId = laneIds) (start : Nat)
    (known : ∀ call ∈ calls, call.callerClassId ∈ laneIds ∧ call.targetClassId ∈ laneIds)
    (pool : Pool R) {place : Nat} {call : Call} (called : calls[place]? = some call) :
    ∃ arrow : CallArrow R,
      (arrowsFrom settings text lanes laneIds start calls pool).1[place]? = some arrow ∧
        arrow.Joins lanes (start + place) call := by
  induction calls generalizing start pool place with
  | nil => simp at called
  | cons first rest ih =>
    rw [List.forall_mem_cons] at known
    cases place with
    | zero =>
      obtain rfl := Option.some.inj called
      exact ⟨_, rfl, joins_arrow named start known.1.1 known.1.2 pool⟩
    | succ place =>
      rw [← Nat.add_assoc, Nat.add_right_comm]
      exact ih (start + 1) known.2 _ called

theorem length_arrowsFrom (start : Nat) (calls : List Call) (pool : Pool R) :
    (arrowsFrom settings text lanes laneIds start calls pool).1.length = calls.length := by
  induction calls generalizing start pool with
  | nil => rfl
  | cons call rest ih => simp [arrowsFrom, ih]

/-! ## The whole diagram -/

/-- No two lanes stand for one class.  The first lane is that of the root's class
and the others come in the order in which calls first touch their classes; no
other class has one.  There is one arrow for each call, in the same order, between
the lanes of its ends. -/
structure WellIndexed (view : SequenceView R) (rootClass : NodeId) : Prop where
  distinct : (view.lanes.map Lane.classId).Nodup
  order : ∃ others, view.lanes.map Lane.classId = rootClass :: others ∧
    others.Pairwise fun first second =>
      (appearances view.calls).idxOf first < (appearances view.calls).idxOf second
  lanes : ∀ classId, (∃ lane ∈ view.lanes, lane.classId = classId) ↔ classId = rootClass ∨
    ∃ call ∈ view.calls, classId = call.callerClassId ∨ classId = call.targetClassId
  count : view.arrows.length = view.calls.length
  arrows : ∀ index call, view.calls[index]? = some call →
    ∃ arrow : CallArrow R,
      view.arrows[index]? = some arrow ∧ arrow.Joins view.lanes index call

theorem map_named_lanesFrom (callCount index : Nat) (named : List (NodeId × String))
    (pool : Pool R) :
    (lanesFrom settings text callCount index named pool).1.map
      (fun lane => (lane.classId, lane.name)) = named := by
  induction named generalizing index pool with
  | nil => rfl
  | cons first rest ih =>
    simp only [lanesFrom, List.map_cons, ih]
    rfl

/-- The parts of a diagram: calls, lanes for their classes, arrows for the calls
between these lanes. -/
theorem parts_of_build {reg lending : Registry R} {interaction : InteractionSettings R}
    {view : SequenceView R} {method : Method} (found : reg.methods.get? root = some method)
    (built : build reg root settings interaction = some (view, lending)) :
    reg.collectCalls root = some view.calls ∧
      view.lanes.map (fun lane => (lane.classId, lane.name)) =
        (laneOrder method.classId view.calls).map (fun id =>
          (id, ((reg.classes.get? id).map ClassNode.name).getD id)) ∧
      ∃ pool : Pool R, view.arrows = (arrowsFrom settings reg.text view.lanes
        (laneOrder method.classId view.calls) 0 view.calls pool).1 := by
  cases collected : reg.collectCalls root with
  | none => simp [build, collected] at built
  | some calls =>
    simp only [build, collected, found, Option.bind_eq_bind, Option.bind_some, Option.pure_def,
      Option.some.injEq, Prod.mk.injEq] at built
    rcases built with ⟨rfl, -⟩
    exact ⟨rfl, map_named_lanesFrom _ _ _ _, _, rfl⟩

omit [Scalar R] in
theorem collectCalls_of_silent (known : root ∈ reg.methods.keys)
    (silent : reg.callTargets root = []) :
    reg.collectCalls root = some [] := by
  rw [Registry.collectCalls, if_pos (Store.contains_iff.mpr known)]
  dsimp only
  rw [silent, walkCalls, walkCalls]
  rfl

/-- The diagram of a method that calls nothing is a lane without arrows. -/
theorem build_of_silent {method : Method} (found : reg.methods.get? root = some method)
    (silent : reg.callTargets root = []) (interaction : InteractionSettings R) :
    build reg root settings interaction =
      let name := ((reg.classes.get? method.classId).map ClassNode.name).getD method.classId
      let lanes := lanesFrom settings reg.text 0 0 [(method.classId, name)] reg.pool
      some (⟨root, lanes.1, [], [], interaction.hitHalfWidth⟩, { reg with pool := lanes.2 }) := by
  rw [build, collectCalls_of_silent (Store.mem_keys_of_get? found) silent, found]
  rfl

theorem wellIndexed_of_build {reg lending : Registry R} {interaction : InteractionSettings R}
    {view : SequenceView R} {method : Method} (found : reg.methods.get? root = some method)
    (built : build reg root settings interaction = some (view, lending)) :
    view.WellIndexed method.classId := by
  rcases parts_of_build found built with ⟨-, named, pool, arrows⟩
  have laneIds : view.lanes.map Lane.classId = laneOrder method.classId view.calls := by
    simpa [Function.comp_def] using congrArg (List.map Prod.fst) named
  constructor
  · rw [laneIds]
    exact nodup_laneOrder _ _
  · rw [laneIds]
    exact exists_laneOrder_cons _ _
  · intro classId
    rw [← mem_laneOrder_iff, ← laneIds, List.mem_map]
  · rw [arrows]
    exact length_arrowsFrom _ _ _
  · intro index call called
    have known : ∀ call ∈ view.calls,
        call.callerClassId ∈ laneOrder method.classId view.calls ∧
          call.targetClassId ∈ laneOrder method.classId view.calls := by
      intro call mem
      simp only [mem_laneOrder_iff]
      exact ⟨Or.inr ⟨call, mem, Or.inl rfl⟩, Or.inr ⟨call, mem, Or.inr rfl⟩⟩
    simpa [arrows] using joins_arrowsFrom laneIds 0 known pool called

omit [Scalar R] in
/-- A recorded call names the classes that own its methods. -/
theorem owners_of_collectCalls (collected : reg.collectCalls root = some calls) {call : Call}
    (mem : call ∈ calls) :
    (reg.methods.get? call.callerId).map Method.classId = some call.callerClassId ∧
      (reg.methods.get? call.targetId).map Method.classId = some call.targetClassId := by
  simp only [Registry.collectCalls, Option.ite_none_right_eq_some, Option.some.injEq] at collected
  rcases collected with ⟨-, rfl⟩
  rcases List.mem_filterMap.mp mem with ⟨⟨caller, target, depth⟩, -, recorded⟩
  simp only [Registry.callRecord, Option.bind_eq_bind, Option.bind_eq_some_iff, Option.pure_def,
    Option.some.injEq] at recorded
  rcases recorded with ⟨callerMethod, callerFound, targetMethod, targetFound, callerClass,
    callerClassFound, targetClass, targetClassFound, rfl⟩
  have callerId : callerMethod.id = caller := Store.key_of_get? callerFound
  have targetId : targetMethod.id = target := Store.key_of_get? targetFound
  have callerClassId : callerClass.id = callerMethod.classId := Store.key_of_get? callerClassFound
  have targetClassId : targetClass.id = targetMethod.classId := Store.key_of_get? targetClassFound
  simp [callerId, targetId, callerFound, targetFound, callerClassId, targetClassId]

/-- **Call diagrams are well indexed.**  On every reachable map and for every
method there is a diagram of its calls.  Its lanes and arrows are well indexed,
the class of each end of a call is the owner of the method there, and every lane
has the name of a class on the map. -/
theorem build_well_indexed {registry : Registry R} {drawn : Option (SequenceView R)}
    (reachable : registry.Reachable drawn) {root : NodeId}
    (isMethod : root ∈ registry.methods.keys) (settings : SequenceSettings R)
    (interaction : InteractionSettings R) :
    ∃ method view lending, registry.methods.get? root = some method ∧
      build registry root settings interaction = some (view, lending) ∧
      registry.collectCalls root = some view.calls ∧
      view.WellIndexed method.classId ∧
      (∀ call ∈ view.calls,
        (registry.methods.get? call.callerId).map Method.classId = some call.callerClassId ∧
        (registry.methods.get? call.targetId).map Method.classId = some call.targetClassId) ∧
      ∀ lane ∈ view.lanes,
        (registry.classes.get? lane.classId).map ClassNode.name = some lane.name := by
  have coherent := reachable.coherent
  rcases build_cases registry root settings interaction with
    ⟨unknown, -⟩ | ⟨method, view, pool, found, built, collected, laneIds, -⟩
  · exact absurd isMethod unknown
  · rcases parts_of_build found built with ⟨-, named, -⟩
    refine ⟨method, view, _, found, built, collected, wellIndexed_of_build found built,
      fun call mem => owners_of_collectCalls collected mem, ?_⟩
    intro lane mem
    have listed : (lane.classId, lane.name) ∈ (laneOrder method.classId view.calls).map fun id =>
        (id, ((registry.classes.get? id).map ClassNode.name).getD id) := by
      rw [← named]
      exact List.mem_map_of_mem mem
    rcases List.mem_map.mp listed with ⟨classId, inOrder, pairEq⟩
    rcases Store.exists_get? (laneOrder_stored coherent found collected inOrder) with ⟨node, stored⟩
    simp only [stored, Option.map_some, Option.getD_some, Prod.mk.injEq] at pairEq
    rcases pairEq with ⟨rfl, nameEq⟩
    simp [stored, nameEq]

/-- A method calls one of another class and a sibling, and gets a call back. -/
def crossCalls : Registry Float32 :=
  Engine.sampleStart.registry.apply (.addData
    [⟨"shop", ["Class"], []⟩, ⟨"bank", ["Class"], []⟩, ⟨"order", ["Method"], []⟩,
      ⟨"pay", ["Method"], []⟩, ⟨"confirm", ["Method"], []⟩]
    [⟨"1", "HAS_METHOD", "shop", "order", []⟩, ⟨"2", "HAS_METHOD", "bank", "pay", []⟩,
      ⟨"3", "HAS_METHOD", "shop", "confirm", []⟩, ⟨"4", "CALLS", "order", "pay", []⟩,
      ⟨"5", "CALLS", "pay", "confirm", []⟩, ⟨"6", "CALLS", "order", "confirm", []⟩])

theorem build_well_indexed_sample :
    "order" ∈ crossCalls.methods.keys ∧
    ∃ method view lending, crossCalls.methods.get? "order" = some method ∧
      build crossCalls "order" .standard .standard = some (view, lending) ∧
      view.WellIndexed method.classId := by
  have reachable : crossCalls.Reachable none :=
    (Registry.Reachable.create _ _ _).operate (.addData _ _) (Or.inl rfl)
  have isMethod : "order" ∈ crossCalls.methods.keys := by
    have start := Registry.coherent_create Engine.sampleStart.registry.metrics
      Engine.sampleStart.registry.defaultToggles Engine.sampleStart.registry.text
    have methods : crossCalls.methods.keys = ["order", "pay", "confirm"] :=
      (start.keys_addData rfl _ _).2.trans (by decide)
    rw [methods]
    decide
  rcases build_well_indexed reachable isMethod .standard .standard with
    ⟨method, view, lending, found, built, -, indexed, -⟩
  exact ⟨isMethod, method, view, lending, found, built, indexed⟩

end SequenceView

end CodeAtlas
