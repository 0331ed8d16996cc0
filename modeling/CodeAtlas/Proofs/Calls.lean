import CodeAtlas.Proofs.Reachable
import Mathlib.Logic.Relation

/-!
# Exactness of the walk over calls

The walk follows the calls of a method only the first time it reaches it.  So
what it records is told by the methods that it opens: each of them contributes
all its calls once, no method is opened twice, and the opened methods are those
that the root leads to.  On a reachable map every recorded call finds the
methods and classes that it names.
-/

namespace CodeAtlas

/-- Caller, target and depth of a recorded call. -/
def Call.step (call : Call) : NodeId × NodeId × Nat :=
  (call.callerId, call.targetId, call.depth)

/-- The calls of a method, by its targets. -/
def callPairs (caller : NodeId) (targets : List NodeId) : List (NodeId × NodeId) :=
  targets.map fun target => (caller, target)

/-- The methods that a walk opens: they were fresh, each is opened once, each is
led to by a call that was still to come, and no fresh target of such a call or
of an opened method is left out. -/
structure Opens (targets : NodeId → List NodeId) (fresh : List NodeId) (frames : List CallFrame)
    (opened : List NodeId) : Prop where
  distinct : opened.Nodup
  unreached : ∀ method ∈ opened, method ∈ fresh
  reached : ∀ method ∈ opened, ∃ frame ∈ frames, ∃ target ∈ frame.remaining,
    Relation.ReflTransGen (fun caller callee => callee ∈ targets caller) target method
  outstanding : ∀ frame ∈ frames, ∀ target ∈ frame.remaining, target ∈ fresh → target ∈ opened
  closed : ∀ caller ∈ opened, ∀ target ∈ targets caller, target ∈ fresh → target ∈ opened

namespace Opens

variable {targets : NodeId → List NodeId} {fresh opened : List NodeId} {frames : List CallFrame}
  {caller target : NodeId} {depth : Nat} {remaining : List NodeId}

theorem nil : Opens targets fresh [] [] :=
  ⟨List.nodup_nil, nofun, nofun, nofun, nofun⟩

/-- A frame without calls to come opens nothing. -/
theorem skipFrame (opens : Opens targets fresh frames opened) :
    Opens targets fresh (⟨caller, depth, []⟩ :: frames) opened := by
  refine ⟨opens.distinct, opens.unreached, ?_, ?_, opens.closed⟩
  · intro method mem
    obtain ⟨frame, frameMem, reached⟩ := opens.reached method mem
    exact ⟨frame, List.mem_cons_of_mem _ frameMem, reached⟩
  · intro frame frameMem target targetMem
    rcases List.mem_cons.mp frameMem with rfl | old
    · cases targetMem
    · exact opens.outstanding frame old target targetMem

/-- A call whose target was reached before opens nothing. -/
theorem skipCall (opens : Opens targets fresh (⟨caller, depth, remaining⟩ :: frames) opened)
    (known : target ∉ fresh) :
    Opens targets fresh (⟨caller, depth, target :: remaining⟩ :: frames) opened := by
  refine ⟨opens.distinct, opens.unreached, ?_, ?_, opens.closed⟩
  · intro method mem
    obtain ⟨frame, frameMem, next, nextMem, path⟩ := opens.reached method mem
    rcases List.mem_cons.mp frameMem with rfl | old
    · exact ⟨_, List.mem_cons_self, next, List.mem_cons_of_mem _ nextMem, path⟩
    · exact ⟨frame, List.mem_cons_of_mem _ old, next, nextMem, path⟩
  · intro frame frameMem next nextMem nextFresh
    rcases List.mem_cons.mp frameMem with rfl | old
    · rcases List.mem_cons.mp nextMem with rfl | later
      · exact absurd nextFresh known
      · exact opens.outstanding _ List.mem_cons_self next later nextFresh
    · exact opens.outstanding frame (List.mem_cons_of_mem _ old) next nextMem nextFresh

/-- A call to a fresh method opens it, and then what its own calls open. -/
theorem openCall (new : target ∈ fresh) (freshDistinct : fresh.Nodup)
    (opens : Opens targets (fresh.erase target)
      (⟨target, depth + 1, targets target⟩ :: ⟨caller, depth, remaining⟩ :: frames) opened) :
    Opens targets fresh (⟨caller, depth, target :: remaining⟩ :: frames) (target :: opened) := by
  have stillFresh : ∀ {method}, method ∈ fresh.erase target ↔ method ≠ target ∧ method ∈ fresh :=
    freshDistinct.mem_erase_iff
  have known : ∀ method ∈ fresh, (method ∈ fresh.erase target → method ∈ opened) →
      method ∈ target :: opened := by
    intro method isFresh later
    by_cases same : method = target
    · exact same ▸ List.mem_cons_self
    · exact List.mem_cons_of_mem _ (later (stillFresh.mpr ⟨same, isFresh⟩))
  constructor
  · refine List.nodup_cons.mpr ⟨?_, opens.distinct⟩
    intro mem
    exact (stillFresh.mp (opens.unreached target mem)).1 rfl
  · intro method mem
    rcases List.mem_cons.mp mem with rfl | later
    · exact new
    · exact (stillFresh.mp (opens.unreached method later)).2
  · intro method mem
    rcases List.mem_cons.mp mem with rfl | later
    · exact ⟨_, List.mem_cons_self, method, List.mem_cons_self, .refl⟩
    · obtain ⟨frame, frameMem, next, nextMem, path⟩ := opens.reached method later
      rcases List.mem_cons.mp frameMem with rfl | outer
      · exact ⟨_, List.mem_cons_self, target, List.mem_cons_self, .head nextMem path⟩
      · rcases List.mem_cons.mp outer with rfl | old
        · exact ⟨_, List.mem_cons_self, next, List.mem_cons_of_mem _ nextMem, path⟩
        · exact ⟨frame, List.mem_cons_of_mem _ old, next, nextMem, path⟩
  · intro frame frameMem next nextMem nextFresh
    rcases List.mem_cons.mp frameMem with rfl | old
    · rcases List.mem_cons.mp nextMem with rfl | later
      · exact List.mem_cons_self
      · exact known next nextFresh
          (opens.outstanding ⟨caller, depth, remaining⟩ (by simp) next later)
    · exact known next nextFresh (opens.outstanding frame (by simp [old]) next nextMem)
  · intro method mem next nextMem nextFresh
    rcases List.mem_cons.mp mem with rfl | later
    · exact known next nextFresh (opens.outstanding _ List.mem_cons_self next nextMem)
    · exact known next nextFresh (opens.closed method later next nextMem)

end Opens

/-- A walk records the calls that were still to come and all calls of the
methods that it opens, each once. -/
theorem walkCalls_opens (targets : NodeId → List NodeId) (fresh : List NodeId)
    (frames : List CallFrame) (freshDistinct : fresh.Nodup) :
    ∃ opened, Opens targets fresh frames opened ∧
      ((walkCalls targets fresh frames).map fun step => (step.1, step.2.1)).Perm
        ((frames.flatMap fun frame => callPairs frame.caller frame.remaining) ++
          opened.flatMap fun caller => callPairs caller (targets caller)) := by
  fun_induction walkCalls targets fresh frames with
  | case1 fresh => exact ⟨[], .nil, List.Perm.refl _⟩
  | case2 fresh caller depth frames ih =>
    obtain ⟨opened, opens, recorded⟩ := ih freshDistinct
    exact ⟨opened, opens.skipFrame, recorded⟩
  | case3 fresh caller depth target remaining frames rest new ih =>
    obtain ⟨opened, opens, recorded⟩ := ih (freshDistinct.erase target)
    refine ⟨target :: opened, opens.openCall new freshDistinct, ?_⟩
    rw [List.perm_iff_count] at recorded ⊢
    intro pair
    have counted := recorded pair
    simp only [rest, callPairs, List.map_cons, List.flatMap_cons, List.count_append,
      List.count_cons, List.cons_append] at counted ⊢
    omega
  | case4 fresh caller depth target remaining frames rest known ih =>
    obtain ⟨opened, opens, recorded⟩ := ih freshDistinct
    exact ⟨opened, opens.skipCall known, recorded.cons _⟩

namespace Registry

variable {R : Type} {reg : Registry R}

/-! ## Calls of the map -/

/-- Whether an edge is a call between methods on the map. -/
def IsCall (reg : Registry R) (edge : Edge) : Prop :=
  edge.kind = .calls ∧ edge.source ∈ reg.methods.keys ∧ edge.target ∈ reg.methods.keys

/-- A method leads to those that it calls, to those that they call, and so on. -/
def LeadsTo (reg : Registry R) : NodeId → NodeId → Prop :=
  Relation.ReflTransGen fun caller target => ∃ edge ∈ reg.edges.items,
    reg.IsCall edge ∧ edge.source = caller ∧ edge.target = target

open Classical in
/-- Source and target of every call whose source the root leads to. -/
noncomputable def callsFrom (reg : Registry R) (root : NodeId) : List (NodeId × NodeId) :=
  (reg.edges.items.filter fun edge =>
    reg.IsCall edge ∧ reg.LeadsTo root edge.source).map
      fun edge => (edge.source, edge.target)

theorem mem_callsFrom_iff {root : NodeId} {ends : NodeId × NodeId} :
    ends ∈ reg.callsFrom root ↔ ∃ edge ∈ reg.edges.items,
      (reg.IsCall edge ∧ reg.LeadsTo root edge.source) ∧
        (edge.source, edge.target) = ends := by
  simp only [callsFrom, List.mem_map, List.mem_filter, decide_eq_true_eq, and_assoc]

theorem mem_callTargets_iff {caller target : NodeId} :
    target ∈ reg.callTargets caller ↔
      ∃ edge ∈ reg.edges.items,
        reg.IsCall edge ∧ edge.source = caller ∧ edge.target = target := by
  simp only [callTargets, List.mem_filterMap, Store.contains_iff, Option.ite_none_right_eq_some,
    Option.some.injEq, IsCall]
  constructor
  · rintro ⟨edge, mem, ⟨kind, same, source, stored⟩, rfl⟩
    exact ⟨edge, mem, ⟨kind, source, stored⟩, same, rfl⟩
  · rintro ⟨edge, mem, ⟨kind, source, stored⟩, same, rfl⟩
    exact ⟨edge, mem, ⟨kind, same, source, stored⟩, rfl⟩

open Classical in
/-- The calls of one method are the call edges that start at it. -/
theorem callPairs_callTargets (reg : Registry R) (caller : NodeId) :
    callPairs caller (reg.callTargets caller) =
      (reg.edges.items.filter fun edge =>
        reg.IsCall edge ∧ edge.source = caller).map fun edge =>
          (edge.source, edge.target) := by
  rw [callPairs, callTargets, List.map_filterMap, ← List.filterMap_eq_map, List.filterMap_filter]
  apply List.filterMap_congr
  intro edge _
  have contains : (edge.kind = .calls ∧ edge.source = caller ∧
      reg.methods.contains edge.source = true ∧
      reg.methods.contains edge.target = true) ↔
      reg.IsCall edge ∧ edge.source = caller := by
    rw [IsCall, Store.contains_iff, Store.contains_iff]
    tauto
  simp only [contains, decide_eq_true_eq]
  by_cases call : reg.IsCall edge ∧ edge.source = caller
  · rw [if_pos call, if_pos call, Option.map_some, Function.comp_apply, call.2]
  · rw [if_neg call, if_neg call, Option.map_none]

open Classical in
/-- The calls of several methods are the call edges that start at one of them. -/
theorem perm_flatMap_callPairs (reg : Registry R) {callers : List NodeId}
    (distinct : callers.Nodup) :
    (callers.flatMap fun caller => callPairs caller (reg.callTargets caller)).Perm
      ((reg.edges.items.filter fun edge =>
        reg.IsCall edge ∧ edge.source ∈ callers).map
          fun edge => (edge.source, edge.target)) := by
  induction callers with
  | nil => simp
  | cons caller rest ih =>
    obtain ⟨absent, restDistinct⟩ := List.nodup_cons.mp distinct
    have split := List.filter_append_perm (fun edge => edge.source = caller)
      (reg.edges.items.filter fun edge =>
        reg.IsCall edge ∧ edge.source ∈ caller :: rest)
    have own : (reg.edges.items.filter fun edge =>
        reg.IsCall edge ∧ edge.source ∈ caller :: rest).filter
          (fun edge => edge.source = caller) =
        reg.edges.items.filter fun edge =>
          reg.IsCall edge ∧ edge.source = caller := by
      rw [List.filter_filter]
      apply List.filter_congr
      intro edge _
      by_cases same : edge.source = caller <;> simp [same]
    have others : (reg.edges.items.filter fun edge =>
        reg.IsCall edge ∧ edge.source ∈ caller :: rest).filter
          (fun edge => !decide (edge.source = caller)) =
        reg.edges.items.filter fun edge =>
          reg.IsCall edge ∧ edge.source ∈ rest := by
      rw [List.filter_filter]
      apply List.filter_congr
      intro edge _
      by_cases same : edge.source = caller <;> simp [same, absent]
    rw [own, others] at split
    rw [List.flatMap_cons, callPairs_callTargets]
    refine ((ih restDistinct).append_left _).trans ?_
    rw [← List.map_append]
    exact split.map _

/-- On a coherent map the call between two methods is recorded. -/
theorem Coherent.callRecord (coherent : reg.Coherent) {caller target : NodeId}
    (callerKnown : caller ∈ reg.methods.keys) (targetKnown : target ∈ reg.methods.keys)
    (depth : Nat) :
    ∃ call, reg.callRecord caller target depth = some call ∧
      call.step = (caller, target, depth) := by
  obtain ⟨callerMethod, callerFound⟩ := Store.exists_get? callerKnown
  obtain ⟨targetMethod, targetFound⟩ := Store.exists_get? targetKnown
  obtain ⟨callerClass, callerClassFound, _⟩ := coherent.owner_of_get? callerFound
  obtain ⟨targetClass, targetClassFound, _⟩ := coherent.owner_of_get? targetFound
  have callerId : callerMethod.id = caller := Store.key_of_get? callerFound
  have targetId : targetMethod.id = target := Store.key_of_get? targetFound
  unfold Registry.callRecord
  simp only [callerFound, targetFound, callerClassFound, targetClassFound, Option.bind_eq_bind,
    Option.bind_some]
  exact ⟨_, rfl, by rw [Call.step, callerId, targetId]⟩

/-- The methods that a walk from the root opens, and the root, are those that the
root leads to. -/
theorem mem_cons_opened_iff {root : NodeId} {opened : List NodeId}
    (opens : Opens reg.callTargets (reg.methods.keys.erase root)
      [⟨root, 0, reg.callTargets root⟩] opened) {method : NodeId} :
    method ∈ root :: opened ↔ reg.LeadsTo root method := by
  have stepEq : (fun caller callee => callee ∈ reg.callTargets caller) =
      fun caller target => ∃ edge ∈ reg.edges.items,
        reg.IsCall edge ∧ edge.source = caller ∧ edge.target = target := by
    funext caller target
    exact propext mem_callTargets_iff
  rw [LeadsTo, ← stepEq]
  constructor
  · intro mem
    rcases List.mem_cons.mp mem with rfl | later
    · exact .refl
    · obtain ⟨frame, frameMem, next, nextMem, path⟩ := opens.reached method later
      obtain rfl := List.mem_singleton.mp frameMem
      exact .head nextMem path
  · intro path
    induction path with
    | refl => exact List.mem_cons_self
    | @tail caller target _ call callerMem =>
      by_cases same : target = root
      · exact same ▸ List.mem_cons_self
      · obtain ⟨edge, _, isCall, _, rfl⟩ := mem_callTargets_iff.mp call
        have fresh : edge.target ∈ reg.methods.keys.erase root :=
          (List.mem_erase_of_ne same).mpr isCall.2.2
        rcases List.mem_cons.mp callerMem with rfl | opened
        · exact List.mem_cons_of_mem _
            (opens.outstanding _ List.mem_cons_self edge.target call fresh)
        · exact List.mem_cons_of_mem _ (opens.closed caller opened edge.target call fresh)

/-- From a method on the map the walk records exactly the calls that the method
leads to, as often as there are such edges. -/
theorem walk_perm_callsFrom (distinct : reg.methods.keys.Nodup) (root : NodeId) :
    ((walkCalls reg.callTargets (reg.methods.keys.erase root)
      [⟨root, 0, reg.callTargets root⟩]).map fun step => (step.1, step.2.1)).Perm
        (reg.callsFrom root) := by
  obtain ⟨opened, opens, recorded⟩ := walkCalls_opens reg.callTargets
    (reg.methods.keys.erase root) [⟨root, 0, reg.callTargets root⟩]
    (distinct.erase root)
  have callersDistinct : (root :: opened).Nodup := by
    refine List.nodup_cons.mpr ⟨?_, opens.distinct⟩
    intro mem
    exact (distinct.mem_erase_iff.mp (opens.unreached root mem)).1 rfl
  rw [List.flatMap_singleton] at recorded
  refine (recorded.trans (reg.perm_flatMap_callPairs callersDistinct)).trans (.of_eq ?_)
  rw [callsFrom]
  congr 1
  apply List.filter_congr
  intro edge _
  rw [decide_eq_decide, mem_cons_opened_iff opens]

section Records

variable {reg : Registry R} {steps : List (NodeId × NodeId × Nat)}
  (known : ∀ step ∈ steps, step.1 ∈ reg.methods.keys ∧ step.2.1 ∈ reg.methods.keys)
include known

/-- No step of a walk is dropped when both its ends are methods of a coherent
map. -/
theorem Coherent.map_step_filterMap_callRecord (coherent : reg.Coherent) :
    (steps.filterMap fun (caller, target, depth) => reg.callRecord caller target depth).map
      Call.step = steps := by
  rw [List.map_filterMap]
  conv_rhs => rw [← List.filterMap_some (l := steps)]
  apply List.filterMap_congr
  intro step mem
  obtain ⟨callerKnown, targetKnown⟩ := known step mem
  obtain ⟨call, recorded, ends⟩ := coherent.callRecord callerKnown targetKnown step.2.2
  simp [recorded, ends]

/-- Each step has its record. -/
theorem Coherent.map_some_filterMap_callRecord (coherent : reg.Coherent) :
    (steps.filterMap fun (caller, target, depth) => reg.callRecord caller target depth).map
      some = steps.map fun step => reg.callRecord step.1 step.2.1 step.2.2 := by
  rw [List.map_filterMap, ← List.filterMap_eq_map]
  apply List.filterMap_congr
  intro step mem
  obtain ⟨callerKnown, targetKnown⟩ := known step mem
  obtain ⟨call, recorded, _⟩ := coherent.callRecord callerKnown targetKnown step.2.2
  simp [recorded]

theorem Coherent.map_ends_filterMap_callRecord (coherent : reg.Coherent) :
    (steps.filterMap fun (caller, target, depth) => reg.callRecord caller target depth).map
        (fun call => (call.callerId, call.targetId)) =
      steps.map fun step => (step.1, step.2.1) := by
  conv_rhs => rw [← coherent.map_step_filterMap_callRecord known, List.map_map]
  rfl

end Records

/-- On every reachable map: from a method, the recorded calls are exactly the
call edges between methods whose source the method leads to, each edge once; for
anything else there is no record. -/
theorem calls_collected_exactly [Scalar R] {registry : Registry R}
    {drawn : Option (SequenceView R)} (reachable : registry.Reachable drawn) (root : NodeId) :
    (root ∈ registry.methods.keys →
      ∃ calls, registry.collectCalls root = some calls ∧
        (calls.map fun call => (call.callerId, call.targetId)).Perm (registry.callsFrom root)) ∧
    (root ∉ registry.methods.keys → registry.collectCalls root = none) := by
  have coherent := reachable.coherent
  have walked := walk_perm_callsFrom coherent.methodKeys root
  constructor
  · intro isMethod
    refine ⟨_, if_pos (Store.contains_iff.mpr isMethod), ?_⟩
    rw [coherent.map_ends_filterMap_callRecord]
    · exact walked
    · intro step mem
      have listed := walked.mem_iff.mp (List.mem_map_of_mem mem)
      obtain ⟨edge, _, ⟨⟨_, source, target⟩, _⟩, ends⟩ := mem_callsFrom_iff.mp listed
      obtain ⟨sourceEq, targetEq⟩ := Prod.mk.inj ends
      exact ⟨sourceEq ▸ source, targetEq ▸ target⟩
  · intro unknown
    exact if_neg (by rwa [Store.contains_iff])

/-- A class with methods that call each other in a cycle, one of them itself and
one of them twice, and a method that nobody calls. -/
def callSample : Registry Float32 :=
  Engine.sampleStart.registry.apply (.addData
    [⟨"class", ["Class"], []⟩, ⟨"first", ["Method"], []⟩, ⟨"second", ["Method"], []⟩,
      ⟨"apart", ["Method"], []⟩]
    [⟨"1", "HAS_METHOD", "class", "first", []⟩, ⟨"2", "HAS_METHOD", "class", "second", []⟩,
      ⟨"3", "HAS_METHOD", "class", "apart", []⟩, ⟨"4", "CALLS", "first", "second", []⟩,
      ⟨"5", "CALLS", "first", "second", []⟩, ⟨"6", "CALLS", "second", "first", []⟩,
      ⟨"7", "CALLS", "second", "second", []⟩, ⟨"8", "CALLS", "apart", "first", []⟩])

theorem calls_collected_sample :
    (∃ calls, callSample.collectCalls "first" = some calls ∧
      (calls.map fun call => (call.callerId, call.targetId)).Perm
        (callSample.callsFrom "first")) ∧
    callSample.collectCalls "class" = none := by
  have reachable : callSample.Reachable none :=
    (Reachable.create _ _ _).operate (.addData _ _) (Or.inl rfl)
  have methods : callSample.methods.keys = ["first", "second", "apart"] := by
    have start := coherent_create Engine.sampleStart.registry.metrics
      Engine.sampleStart.registry.defaultToggles Engine.sampleStart.registry.text
    refine (start.keys_addData rfl _ _).2.trans ?_
    decide
  refine ⟨(calls_collected_exactly reachable "first").1 ?_,
    (calls_collected_exactly reachable "class").2 ?_⟩
  · rw [methods]
    decide
  · rw [methods]
    decide

end Registry

end CodeAtlas
