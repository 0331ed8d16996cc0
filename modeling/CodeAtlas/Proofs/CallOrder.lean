import CodeAtlas.Proofs.Calls

/-!
# The order of recorded calls

The calls of a method are walked with frames that hold the calls still to come.
The same records come from a plain recursion: take note of each call of a method
in the order of the edges, and visit its target, if it was not reached before,
ahead of the next call.

A frame on top of others stands for a visit that is not finished.  So walking it
amounts to the rest of this visit, whatever lies below.
-/

namespace CodeAtlas

/-- Calls in the order in which they are met, as caller, target and depth, and
the methods reached so far. -/
structure CallLog where
  calls : List (NodeId × NodeId × Nat)
  reached : List NodeId

namespace Registry

variable {R : Type} {reg : Registry R} {reached : List NodeId} {step : NodeId × NodeId × Nat}

instance (reg : Registry R) (edge : Edge) : Decidable (reg.IsCall edge) :=
  inferInstanceAs (Decidable (_ ∧ _ ∧ _))

/-! ## Visits -/

/-- The methods that are not reached yet. -/
def unreached (reg : Registry R) (reached : List NodeId) : List NodeId :=
  reg.methods.keys.filter fun method => method ∉ reached

theorem mem_unreached_iff {method : NodeId} :
    method ∈ reg.unreached reached ↔ method ∈ reg.methods.keys ∧ method ∉ reached := by
  rw [unreached, List.mem_filter, decide_eq_true_eq]

theorem unreached_cons (reg : Registry R) (method : NodeId) (reached : List NodeId) :
    reg.unreached (method :: reached) =
      (reg.unreached reached).filter fun other => other != method := by
  rw [unreached, unreached, List.filter_filter]
  apply List.filter_congr
  intro other _
  rw [Bool.eq_iff_iff]
  simp

theorem length_unreached_cons_lt {method : NodeId} (known : method ∈ reg.methods.keys)
    (new : method ∉ reached) :
    (reg.unreached (method :: reached)).length < (reg.unreached reached).length := by
  rw [unreached_cons]
  apply List.length_filter_lt_length_iff_exists.mpr
  exact ⟨method, mem_unreached_iff.mpr ⟨known, new⟩, by simp⟩

/-- Takes note of the calls that a method makes by the given edges.  The number of
methods that are not reached never grows. -/
def visitWithin (reg : Registry R) (caller : NodeId) (depth : Nat) :
    List Edge → (reached : List NodeId) →
      { log : CallLog // (reg.unreached log.reached).length ≤ (reg.unreached reached).length }
  | [], reached => ⟨⟨[], reached⟩, Nat.le_refl _⟩
  | edge :: rest, reached =>
    if call : reg.IsCall edge ∧ edge.source = caller then
      if known : edge.target ∈ reached then
        let after := visitWithin reg caller depth rest reached
        ⟨⟨(caller, edge.target, depth) :: after.1.calls, after.1.reached⟩, after.2⟩
      else
        have fewer := length_unreached_cons_lt call.1.2.2 known
        let below := visitWithin reg edge.target (depth + 1) reg.edges.items
          (edge.target :: reached)
        have fewerBelow := Nat.lt_of_le_of_lt below.2 fewer
        let after := visitWithin reg caller depth rest below.1.reached
        ⟨⟨(caller, edge.target, depth) :: (below.1.calls ++ after.1.calls), after.1.reached⟩,
          Nat.le_trans after.2 (Nat.le_of_lt fewerBelow)⟩
    else visitWithin reg caller depth rest reached
termination_by edges reached => ((reg.unreached reached).length, edges.length)

/-- Visits a method: each of its calls is noted in the order of the edges, and a
target that was not reached before is visited ahead of the next call. -/
def visit (reg : Registry R) (caller : NodeId) (depth : Nat) (edges : List Edge)
    (reached : List NodeId) : CallLog :=
  (visitWithin reg caller depth edges reached).1

/-- The calls noted by a visit of a method before which nothing else is reached. -/
def visits (reg : Registry R) (root : NodeId) : List (NodeId × NodeId × Nat) :=
  (reg.visit root 0 reg.edges.items [root]).calls

section Equations

variable (reg : Registry R) (caller : NodeId) (depth : Nat) {edge : Edge} (rest : List Edge)
  {reached : List NodeId}

theorem visit_nil (reached : List NodeId) :
    reg.visit caller depth [] reached = ⟨[], reached⟩ := by
  rw [visit, visitWithin]

variable {caller}

theorem visit_cons_of_not_call (noCall : ¬ (reg.IsCall edge ∧ edge.source = caller)) :
    reg.visit caller depth (edge :: rest) reached =
      reg.visit caller depth rest reached := by
  rw [visit, visitWithin, dif_neg noCall]
  rfl

theorem visit_cons_of_known (call : reg.IsCall edge ∧ edge.source = caller)
    (known : edge.target ∈ reached) :
    reg.visit caller depth (edge :: rest) reached =
      ⟨(caller, edge.target, depth) :: (reg.visit caller depth rest reached).calls,
        (reg.visit caller depth rest reached).reached⟩ := by
  rw [visit, visitWithin, dif_pos call, dif_pos known]
  rfl

theorem visit_cons_of_new (call : reg.IsCall edge ∧ edge.source = caller)
    (new : edge.target ∉ reached) :
    reg.visit caller depth (edge :: rest) reached =
      ⟨(caller, edge.target, depth) ::
        ((reg.visit edge.target (depth + 1) reg.edges.items (edge.target :: reached)).calls ++
          (reg.visit caller depth rest (reg.visit edge.target (depth + 1)
            reg.edges.items (edge.target :: reached)).reached).calls),
        (reg.visit caller depth rest (reg.visit edge.target (depth + 1)
          reg.edges.items (edge.target :: reached)).reached).reached⟩ := by
  rw [visit, visitWithin, dif_pos call, dif_neg new]
  rfl

end Equations

/-- What is true of every visit: it holds where no edge is left, and it is carried
over an edge that is no call of the method, over a call to a method that was
reached before, and over any other call and the visit of its target. -/
theorem visit_induction (reg : Registry R) {motive : NodeId → Nat → List Edge → List NodeId → Prop}
    (nil : ∀ caller depth reached, motive caller depth [] reached)
    (skip : ∀ caller depth edge rest reached, ¬ (reg.IsCall edge ∧ edge.source = caller) →
      motive caller depth rest reached → motive caller depth (edge :: rest) reached)
    (known : ∀ caller depth edge rest reached, reg.IsCall edge ∧ edge.source = caller →
      edge.target ∈ reached → motive caller depth rest reached →
      motive caller depth (edge :: rest) reached)
    (new : ∀ caller depth edge rest reached, reg.IsCall edge ∧ edge.source = caller →
      edge.target ∉ reached →
      motive edge.target (depth + 1) reg.edges.items (edge.target :: reached) →
      motive caller depth rest (reg.visit edge.target (depth + 1) reg.edges.items
        (edge.target :: reached)).reached →
      motive caller depth (edge :: rest) reached)
    (caller : NodeId) (depth : Nat) (edges : List Edge) (reached : List NodeId) :
    motive caller depth edges reached := by
  induction caller, depth, edges, reached using visitWithin.induct reg with
  | case1 caller depth reached => exact nil caller depth reached
  | case2 caller depth edge rest reached call isKnown ih =>
    exact known caller depth edge rest reached call isKnown ih
  | case3 caller depth edge rest reached call isNew _ below _ first second =>
    exact new caller depth edge rest reached call isNew first second
  | case4 caller depth edge rest reached noCall ih =>
    exact skip caller depth edge rest reached noCall ih

/-! ## Frames -/

/-- The targets of the calls that a method makes by the given edges. -/
def callTargetsBy (reg : Registry R) (caller : NodeId) (edges : List Edge) : List NodeId :=
  (edges.filter fun edge => reg.IsCall edge ∧ edge.source = caller).map Edge.target

theorem callTargetsBy_cons_of_not_call {caller : NodeId} {edge : Edge}
    (noCall : ¬ (reg.IsCall edge ∧ edge.source = caller)) (rest : List Edge) :
    reg.callTargetsBy caller (edge :: rest) = reg.callTargetsBy caller rest := by
  rw [callTargetsBy, List.filter_cons_of_neg (by simpa using noCall)]
  rfl

theorem callTargetsBy_cons_of_call {caller : NodeId} {edge : Edge}
    (call : reg.IsCall edge ∧ edge.source = caller) (rest : List Edge) :
    reg.callTargetsBy caller (edge :: rest) =
      edge.target :: reg.callTargetsBy caller rest := by
  rw [callTargetsBy, List.filter_cons_of_pos (by simpa using call)]
  rfl

theorem callTargets_eq (reg : Registry R) (caller : NodeId) :
    reg.callTargets caller = reg.callTargetsBy caller reg.edges.items := by
  rw [callTargetsBy, ← List.filterMap_eq_map, List.filterMap_filter]
  apply List.filterMap_congr
  intro edge _
  have same : (edge.kind = .calls ∧ edge.source = caller ∧ reg.methods.contains edge.source = true ∧
      reg.methods.contains edge.target = true) ↔
      reg.IsCall edge ∧ edge.source = caller := by
    rw [IsCall, Store.contains_iff, Store.contains_iff]
    tauto
  simp only [same, decide_eq_true_eq, Function.comp_apply]

theorem unreached_erase (distinct : reg.methods.keys.Nodup) (reached : List NodeId)
    (method : NodeId) :
    (reg.unreached reached).erase method = reg.unreached (method :: reached) := by
  have distinctHere : (reg.unreached reached).Nodup := distinct.filter _
  rw [distinctHere.erase_eq_filter, unreached_cons]

/-- Walking a frame on top of others is the visit that it stands for, and then
walking the others. -/
theorem walkCalls_frame (distinct : reg.methods.keys.Nodup) (caller : NodeId) (depth : Nat)
    (edges : List Edge) (reached : List NodeId) (frames : List CallFrame) :
    walkCalls reg.callTargets (reg.unreached reached)
        (⟨caller, depth, reg.callTargetsBy caller edges⟩ :: frames) =
      (reg.visit caller depth edges reached).calls ++
        walkCalls reg.callTargets
          (reg.unreached (reg.visit caller depth edges reached).reached) frames := by
  induction caller, depth, edges, reached using visit_induction reg generalizing frames with
  | nil caller depth reached =>
    rw [visit_nil, callTargetsBy, List.filter_nil, List.map_nil, walkCalls]
    rfl
  | skip caller depth edge rest reached noCall ih =>
    rw [visit_cons_of_not_call _ _ _ noCall, callTargetsBy_cons_of_not_call noCall]
    exact ih frames
  | known caller depth edge rest reached call known ih =>
    have old : edge.target ∉ reg.unreached reached :=
      fun mem => (mem_unreached_iff.mp mem).2 known
    rw [visit_cons_of_known _ _ _ call known, callTargetsBy_cons_of_call call, walkCalls,
      if_neg old, ih, List.cons_append]
  | new caller depth edge rest reached call new exploreBelow exploreAfter =>
    have fresh : edge.target ∈ reg.unreached reached :=
      mem_unreached_iff.mpr ⟨call.1.2.2, new⟩
    rw [visit_cons_of_new _ _ _ call new, callTargetsBy_cons_of_call call, walkCalls,
      if_pos fresh, unreached_erase distinct, callTargets_eq, exploreBelow,
      exploreAfter, List.cons_append, List.append_assoc]

theorem walkCalls_eq_visits (distinct : reg.methods.keys.Nodup) (root : NodeId) :
    walkCalls reg.callTargets (reg.methods.keys.erase root)
      [⟨root, 0, reg.callTargets root⟩] = reg.visits root := by
  have fresh : reg.methods.keys.erase root = reg.unreached [root] := by
    rw [← unreached_erase distinct, unreached]
    simp
  rw [fresh, callTargets_eq, walkCalls_frame distinct, walkCalls, List.append_nil]
  rfl

/-! ## What a visit notes -/

/-- Methods that are reached stay reached. -/
theorem mem_reached_visit (reg : Registry R) (caller : NodeId) (depth : Nat)
    (edges : List Edge) {method : NodeId} (mem : method ∈ reached) :
    method ∈ (reg.visit caller depth edges reached).reached := by
  induction caller, depth, edges, reached using visit_induction reg with
  | nil => rwa [visit_nil]
  | skip caller depth edge rest reached noCall ih =>
    rw [visit_cons_of_not_call _ _ _ noCall]
    exact ih mem
  | known caller depth edge rest reached call known ih =>
    rw [visit_cons_of_known _ _ _ call known]
    exact ih mem
  | new caller depth edge rest reached call new below after =>
    rw [visit_cons_of_new _ _ _ call new]
    exact after (below (List.mem_cons_of_mem _ mem))

/-- The target of a noted call is reached, and its caller is the visited method or
one reached on the way. -/
theorem ends_of_visit (reg : Registry R) (caller : NodeId) (depth : Nat)
    (edges : List Edge) (reached : List NodeId) :
    ∀ step ∈ (reg.visit caller depth edges reached).calls,
      step.2.1 ∈ (reg.visit caller depth edges reached).reached ∧ (step.1 = caller ∨
        step.1 ∈ (reg.visit caller depth edges reached).reached ∧ step.1 ∉ reached) := by
  induction caller, depth, edges, reached using visit_induction reg with
  | nil =>
    rw [visit_nil]
    exact nofun
  | skip caller depth edge rest reached noCall ih =>
    rw [visit_cons_of_not_call _ _ _ noCall]
    exact ih
  | known caller depth edge rest reached call known ih =>
    rw [visit_cons_of_known _ _ _ call known]
    intro step mem
    rcases List.mem_cons.mp mem with rfl | later
    · exact ⟨mem_reached_visit reg caller depth rest known, Or.inl rfl⟩
    · exact ih step later
  | new caller depth edge rest reached call new below after =>
    rw [visit_cons_of_new _ _ _ call new]
    have target := mem_reached_visit reg caller depth rest
      (mem_reached_visit reg edge.target (depth + 1) reg.edges.items
        (List.mem_cons_self (a := edge.target) (l := reached)))
    intro step mem
    rcases List.mem_cons.mp mem with rfl | later
    · exact ⟨target, Or.inl rfl⟩
    · rcases List.mem_append.mp later with inner | outer
      · refine ⟨mem_reached_visit _ _ _ _ (below step inner).1, Or.inr ?_⟩
        rcases (below step inner).2 with isTarget | ⟨found, absent⟩
        · rw [isTarget]
          exact ⟨target, new⟩
        · exact ⟨mem_reached_visit _ _ _ _ found, List.not_mem_of_not_mem_cons absent⟩
      · refine (after step outer).imp_right (Or.imp_right ?_)
        rintro ⟨found, absent⟩
        refine ⟨found, fun old => absent ?_⟩
        exact mem_reached_visit _ _ _ _ (List.mem_cons_of_mem _ old)

/-! ### Calls of one method -/

/-- The targets of the calls of one method among some calls. -/
def targetsOf (calls : List (NodeId × NodeId × Nat)) (method : NodeId) : List NodeId :=
  (calls.filter fun step => step.1 = method).map fun step => step.2.1

@[simp]
theorem targetsOf_cons (step : NodeId × NodeId × Nat) (calls : List (NodeId × NodeId × Nat))
    (method : NodeId) :
    targetsOf (step :: calls) method =
      if step.1 = method then step.2.1 :: targetsOf calls method else targetsOf calls method := by
  by_cases same : step.1 = method <;> simp [targetsOf, same]

@[simp]
theorem targetsOf_append (first second : List (NodeId × NodeId × Nat)) (method : NodeId) :
    targetsOf (first ++ second) method = targetsOf first method ++ targetsOf second method := by
  simp [targetsOf]

/-- Nothing is noted for other methods than the visited one and those reached on
the way. -/
theorem targetsOf_visit_of_not (reg : Registry R) {caller method : NodeId} (depth : Nat)
    (edges : List Edge) (different : method ≠ caller)
    (untouched : method ∈ (reg.visit caller depth edges reached).reached → method ∈ reached) :
    targetsOf (reg.visit caller depth edges reached).calls method = [] := by
  rw [targetsOf, List.map_eq_nil_iff, List.filter_eq_nil_iff]
  intro step mem isCaller
  obtain rfl := of_decide_eq_true isCaller
  rcases (ends_of_visit reg caller depth edges reached step mem).2 with
    own | ⟨found, absent⟩
  · exact different own
  · exact absent (untouched found)

/-- The calls of the visited method are noted in the order of the edges. -/
theorem targetsOf_visit_caller (reg : Registry R) (caller : NodeId) (depth : Nat)
    (edges : List Edge) (isReached : caller ∈ reached) :
    targetsOf (reg.visit caller depth edges reached).calls caller =
      reg.callTargetsBy caller edges := by
  induction caller, depth, edges, reached using visit_induction reg with
  | nil =>
    rw [visit_nil]
    rfl
  | skip caller depth edge rest reached noCall ih =>
    rw [visit_cons_of_not_call _ _ _ noCall, callTargetsBy_cons_of_not_call noCall]
    exact ih isReached
  | known caller depth edge rest reached call known ih =>
    rw [visit_cons_of_known _ _ _ call known, callTargetsBy_cons_of_call call, targetsOf_cons,
      if_pos rfl, ih isReached]
  | new caller depth edge rest reached call new _ after =>
    have different : caller ≠ edge.target := by
      rintro rfl
      exact new isReached
    have stillReached := List.mem_cons_of_mem edge.target isReached
    rw [visit_cons_of_new _ _ _ call new, callTargetsBy_cons_of_call call, targetsOf_cons,
      if_pos rfl, targetsOf_append,
      targetsOf_visit_of_not _ _ _ different fun _ => stillReached, List.nil_append,
      after (mem_reached_visit _ _ _ _ stillReached)]

/-- A method that is reached on the way is visited as a whole. -/
theorem targetsOf_visit_reached (reg : Registry R) (caller : NodeId) (depth : Nat)
    (edges : List Edge) (isReached : caller ∈ reached) {method : NodeId}
    (found : method ∈ (reg.visit caller depth edges reached).reached)
    (absent : method ∉ reached) :
    targetsOf (reg.visit caller depth edges reached).calls method =
      reg.callTargets method := by
  induction caller, depth, edges, reached using visit_induction reg with
  | nil =>
    rw [visit_nil] at found
    exact absurd found absent
  | skip caller depth edge rest reached noCall ih =>
    rw [visit_cons_of_not_call _ _ _ noCall] at found ⊢
    exact ih isReached found absent
  | known caller depth edge rest reached call known ih =>
    have different : caller ≠ method := ne_of_mem_of_not_mem isReached absent
    rw [visit_cons_of_known _ _ _ call known] at found ⊢
    rw [targetsOf_cons, if_neg different]
    exact ih isReached found absent
  | new caller depth edge rest reached call new below after =>
    have different : caller ≠ method := ne_of_mem_of_not_mem isReached absent
    have stillReached := mem_reached_visit reg edge.target (depth + 1) reg.edges.items
      (List.mem_cons_of_mem edge.target isReached)
    rw [visit_cons_of_new _ _ _ call new] at found ⊢
    rw [targetsOf_cons, if_neg different, targetsOf_append]
    by_cases early : method ∈ (reg.visit edge.target (depth + 1) reg.edges.items
        (edge.target :: reached)).reached
    · -- It is the target of the call, or it was reached from there.
      rw [targetsOf_visit_of_not _ _ rest different.symm fun _ => early, List.append_nil]
      by_cases isTarget : method = edge.target
      · rw [isTarget, targetsOf_visit_caller _ _ _ _ List.mem_cons_self, callTargets_eq]
      · exact below List.mem_cons_self early (List.not_mem_cons_of_ne_of_not_mem isTarget absent)
    · have notTarget : method ≠ edge.target := by
        rintro rfl
        exact early (mem_reached_visit _ _ _ _ List.mem_cons_self)
      rw [targetsOf_visit_of_not _ _ _ notTarget fun here => absurd here early, List.nil_append]
      exact after stillReached found early

/-! ### Callers are reached before -/

/-- The caller of a step was reached first by a call before it, one level up. -/
def ReachedBefore (reached : List NodeId) (before : List (NodeId × NodeId × Nat))
    (step : NodeId × NodeId × Nat) : Prop :=
  ∃ earlier reaching later, before = earlier ++ reaching :: later ∧ reaching.2.1 = step.1 ∧
    reaching.2.2 + 1 = step.2.2 ∧ step.1 ∉ reached ∧ ∀ other ∈ earlier, other.2.1 ≠ step.1

theorem ReachedBefore.prepend {reached wider : List NodeId}
    {before front : List (NodeId × NodeId × Nat)} (found : ReachedBefore wider before step)
    (subset : ∀ method ∈ reached, method ∈ wider) (targets : ∀ other ∈ front, other.2.1 ∈ wider) :
    ReachedBefore reached (front ++ before) step := by
  obtain ⟨earlier, reaching, later, rfl, isCaller, level, absent, first⟩ := found
  refine ⟨front ++ earlier, reaching, later, by rw [List.append_assoc], isCaller, level,
    fun mem => absent (subset _ mem), ?_⟩
  intro other mem
  rcases List.mem_append.mp mem with inFront | inEarlier
  · exact ne_of_mem_of_not_mem (targets other inFront) absent
  · exact first other inEarlier

/-- Where an item stands in one of two lists. -/
theorem append_eq_append_cons_cases {α : Type} {first second before after : List α} {item : α}
    (split : first ++ second = before ++ item :: after) :
    (∃ rest, first = before ++ item :: rest) ∨
      ∃ rest, before = first ++ rest ∧ second = rest ++ item :: after := by
  rcases List.append_eq_append_iff.mp split with ⟨rest, inSecond, tail⟩ | ⟨rest, inFirst, tail⟩
  · exact Or.inr ⟨rest, inSecond, tail⟩
  · cases rest with
    | nil => exact Or.inr ⟨[], by simpa using inFirst.symm, by simpa using tail.symm⟩
    | cons head rest =>
      cases tail
      exact Or.inl ⟨rest, inFirst⟩

/-- A noted call is one of the visited method, or its caller was reached first by
a call before it. -/
theorem reachedBefore_of_visit (reg : Registry R) (caller : NodeId) (depth : Nat)
    (edges : List Edge) (reached : List NodeId) {before after : List (NodeId × NodeId × Nat)}
    (split : (reg.visit caller depth edges reached).calls = before ++ step :: after) :
    (step.1 = caller ∧ step.2.2 = depth) ∨ ReachedBefore reached before step := by
  induction caller, depth, edges, reached using visit_induction reg
    generalizing before after with
  | nil =>
    rw [visit_nil] at split
    cases before <;> cases split
  | skip caller depth edge rest reached noCall ih =>
    rw [visit_cons_of_not_call _ _ _ noCall] at split
    exact ih split
  | known caller depth edge rest reached call known ih =>
    rw [visit_cons_of_known _ _ _ call known] at split
    cases before with
    | nil =>
      cases split
      exact Or.inl ⟨rfl, rfl⟩
    | cons head before =>
      obtain ⟨rfl, later⟩ := List.cons.inj split
      refine (ih later).imp_right fun found => ?_
      rw [← List.singleton_append]
      exact found.prepend (fun _ mem => mem) (by simpa using known)
  | new caller depth edge rest reached call new exploreBelow exploreAfter =>
    rw [visit_cons_of_new _ _ _ call new] at split
    cases before with
    | nil =>
      cases split
      exact Or.inl ⟨rfl, rfl⟩
    | cons head before =>
      obtain ⟨rfl, later⟩ := List.cons.inj split
      rcases append_eq_append_cons_cases later with ⟨_, inBelow⟩ | ⟨between, rfl, inAfter⟩
      · right
        rcases exploreBelow inBelow with ⟨isTarget, level⟩ | found
        · exact ⟨[], _, before, rfl, isTarget.symm, level.symm, isTarget ▸ new, nofun⟩
        · rw [← List.singleton_append]
          exact found.prepend (fun _ mem => List.mem_cons_of_mem _ mem) (by simp)
      · refine (exploreAfter inAfter).imp_right fun found => ?_
        rw [← List.cons_append]
        refine found.prepend
          (fun _ mem => mem_reached_visit _ _ _ _ (List.mem_cons_of_mem _ mem)) ?_
        intro other mem
        rcases List.mem_cons.mp mem with rfl | inner
        · exact mem_reached_visit _ _ _ _ List.mem_cons_self
        · exact (ends_of_visit _ _ _ _ _ other inner).1

/-! ## Recorded calls -/

/-- Both ends of a noted call are methods on the map. -/
theorem known_of_mem_visits (distinct : reg.methods.keys.Nodup) {root : NodeId}
    (mem : step ∈ reg.visits root) :
    step.1 ∈ reg.methods.keys ∧ step.2.1 ∈ reg.methods.keys := by
  have walked := walk_perm_callsFrom distinct root
  rw [walkCalls_eq_visits distinct] at walked
  obtain ⟨edge, _, ⟨⟨_, source, target⟩, _⟩, ends⟩ :=
    mem_callsFrom_iff.mp (walked.mem_iff.mp (List.mem_map_of_mem mem))
  obtain ⟨sourceEq, targetEq⟩ := Prod.mk.inj ends
  exact ⟨sourceEq ▸ source, targetEq ▸ target⟩

theorem targetsOf_visits {root : NodeId} (mem : step ∈ reg.visits root) :
    targetsOf (reg.visits root) step.1 = reg.callTargets step.1 := by
  by_cases same : step.1 = root
  · rw [same, callTargets_eq]
    exact targetsOf_visit_caller _ _ _ _ List.mem_cons_self
  · obtain ⟨found, absent⟩ := (ends_of_visit _ _ _ _ _ step mem).2.resolve_left same
    exact targetsOf_visit_reached _ _ _ _ List.mem_cons_self found absent

/-- The caller of a recorded call that is not at the top was reached first by a
call before it. -/
theorem exists_reaching_call {root : NodeId} {calls : List Call}
    (steps : calls.map Call.step = reg.visits root) {before after : List Call} {call : Call}
    (split : calls = before ++ call :: after) (deep : call.depth ≠ 0) :
    ∃ earlier reaching later, before = earlier ++ reaching :: later ∧
      reaching.targetId = call.callerId ∧ reaching.depth + 1 = call.depth ∧
      call.callerId ≠ root ∧ ∀ other ∈ earlier, other.targetId ≠ call.callerId := by
  rw [split, List.map_append, List.map_cons] at steps
  rcases reachedBefore_of_visit _ _ _ _ _ steps.symm with
    ⟨_, top⟩ | ⟨earlier, reaching, later, cut, isCaller, level, absent, first⟩
  · exact absurd top deep
  · obtain ⟨earlierCalls, rest, rfl, rfl, restEq⟩ := List.map_eq_append_iff.mp cut
    obtain ⟨reachingCall, laterCalls, rfl, rfl, _⟩ := List.map_eq_cons_iff.mp restEq
    exact ⟨earlierCalls, reachingCall, laterCalls, rfl, isCaller, level,
      List.ne_of_not_mem_cons absent, fun other mem => first _ (List.mem_map_of_mem mem)⟩

/-- The calls of one caller are recorded in the order of the edges. -/
theorem map_targetId_filter {root : NodeId} {calls : List Call}
    (steps : calls.map Call.step = reg.visits root) {call : Call} (mem : call ∈ calls) :
    (calls.filter fun other => other.callerId = call.callerId).map Call.targetId =
      reg.callTargetsBy call.callerId reg.edges.items := by
  have noted : call.step ∈ reg.visits root := steps ▸ List.mem_map_of_mem mem
  rw [← callTargets_eq]
  refine Eq.trans ?_ (targetsOf_visits noted)
  rw [← steps, targetsOf, List.filter_map, List.map_map]
  rfl

/-- On every reachable map: from a method, the recorded calls are those that a
visit of the method notes.  The caller of a call at some depth was reached first
by a call before it, one level up, and the calls of one caller are recorded in
the order of the edges. -/
theorem calls_recorded_by_visits [Scalar R] {registry : Registry R}
    {drawn : Option (SequenceView R)} (reachable : registry.Reachable drawn) {root : NodeId}
    (isMethod : root ∈ registry.methods.keys) :
    ∃ calls, registry.collectCalls root = some calls ∧
      calls.map Call.step = registry.visits root ∧
      calls.map some = (registry.visits root).map
        (fun step => registry.callRecord step.1 step.2.1 step.2.2) ∧
      (∀ before call after, calls = before ++ call :: after → call.depth ≠ 0 →
        ∃ earlier reaching later, before = earlier ++ reaching :: later ∧
          reaching.targetId = call.callerId ∧ reaching.depth + 1 = call.depth ∧
          call.callerId ≠ root ∧ ∀ other ∈ earlier, other.targetId ≠ call.callerId) ∧
      ∀ call ∈ calls,
        (calls.filter fun other => other.callerId = call.callerId).map Call.targetId =
          (registry.edges.items.filter fun edge =>
            registry.IsCall edge ∧ edge.source = call.callerId).map Edge.target := by
  have coherent := reachable.coherent
  have known : ∀ step ∈ registry.visits root,
      step.1 ∈ registry.methods.keys ∧ step.2.1 ∈ registry.methods.keys :=
    fun _ mem => known_of_mem_visits coherent.methodKeys mem
  have steps := coherent.map_step_filterMap_callRecord known
  refine ⟨_, ?_, steps, coherent.map_some_filterMap_callRecord known, ?_, ?_⟩
  · rw [← walkCalls_eq_visits coherent.methodKeys]
    exact if_pos (Store.contains_iff.mpr isMethod)
  · exact fun before call after split deep => exists_reaching_call steps split deep
  · exact fun call mem => map_targetId_filter steps mem

/-- A method that calls two others.  The second of these is called on the way
from the first one too, so it is reached there, and so is the start again. -/
def nestedCalls : Registry Float32 :=
  Engine.sampleStart.registry.apply (.addData
    [⟨"class", ["Class"], []⟩, ⟨"start", ["Method"], []⟩, ⟨"left", ["Method"], []⟩,
      ⟨"right", ["Method"], []⟩, ⟨"deep", ["Method"], []⟩]
    [⟨"1", "HAS_METHOD", "class", "start", []⟩, ⟨"2", "HAS_METHOD", "class", "left", []⟩,
      ⟨"3", "HAS_METHOD", "class", "right", []⟩, ⟨"4", "HAS_METHOD", "class", "deep", []⟩,
      ⟨"5", "CALLS", "start", "left", []⟩, ⟨"6", "CALLS", "start", "right", []⟩,
      ⟨"7", "CALLS", "left", "deep", []⟩, ⟨"8", "CALLS", "deep", "start", []⟩,
      ⟨"9", "CALLS", "deep", "right", []⟩])

theorem calls_recorded_sample :
    "start" ∈ nestedCalls.methods.keys ∧
    ∃ calls, nestedCalls.collectCalls "start" = some calls ∧
      calls.map Call.step = nestedCalls.visits "start" ∧
      ∀ call ∈ calls,
        (calls.filter fun other => other.callerId = call.callerId).map Call.targetId =
          (nestedCalls.edges.items.filter fun edge =>
            nestedCalls.IsCall edge ∧ edge.source = call.callerId).map Edge.target := by
  have isMethod : "start" ∈ nestedCalls.methods.keys := by
    have start := coherent_create Engine.sampleStart.registry.metrics
      Engine.sampleStart.registry.defaultToggles Engine.sampleStart.registry.text
    have methods : nestedCalls.methods.keys = ["start", "left", "right", "deep"] :=
      (start.keys_addData rfl _ _).2.trans (by decide)
    rw [methods]
    decide
  have reachable : nestedCalls.Reachable none :=
    (Reachable.create _ _ _).operate (.addData _ _) (Or.inl rfl)
  obtain ⟨calls, collected, steps, _, _, order⟩ := calls_recorded_by_visits reachable isMethod
  exact ⟨isMethod, calls, collected, steps, order⟩

end Registry

end CodeAtlas
