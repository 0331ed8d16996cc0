import CodeAtlas.Proofs.Reachable
import CodeAtlas.Proofs.Registry.Batch

/-!
# The first sight counts

A batch may bring one id several times.  Of the nodes with one id, the first one
that the perspective takes counts, and those behind it change nothing.  A node that
the perspective does not take leaves its id free for others.  A new method waits for
a class to claim it and is not on the map until then, so a batch is asked to repeat
a new method as it is.
-/

namespace CodeAtlas

variable {R : Type} [Scalar R]

/-- Whether the map of a perspective takes in nodes of a kind. -/
def Perspective.takes : Perspective → NodeKind → Bool
  | .technical, kind => kind == .classType || kind == .method
  | .architecture, kind => kind.isStandalone

/-- Nodes without those whose id has been on an earlier node that counts. -/
def withoutRepeats (counts : Node → Bool) (earlier : List Node) : List Node → List Node
  | [] => []
  | node :: rest =>
    let later := withoutRepeats counts (node :: earlier) rest
    if earlier.any fun first => counts first && first.id == node.id then later
    else node :: later

/-- Repeats can be left out if taking in a node that counts makes its id known, other
nodes do not make it unknown again, and what has a known id changes nothing. -/
theorem foldl_withoutRepeats {σ : Type} {step : σ → Node → σ} {counts : Node → Bool}
    (valid : σ → Prop) (knows : σ → Node → Prop) {earlier nodes : List Node} {state : σ}
    (stays : ∀ state node, valid state → valid (step state node))
    (learns : ∀ state, valid state → ∀ node ∈ withoutRepeats counts earlier nodes,
      counts node = true → knows (step state node) node)
    (keeps : ∀ state first node, knows state first → first.id ≠ node.id →
      knows (step state node) first)
    (skips : ∀ state first, ∀ node ∈ nodes, knows state first → first.id = node.id →
      step state node = state)
    (start : valid state)
    (known : ∀ first ∈ earlier, counts first = true →
      ∃ same, same.id = first.id ∧ knows state same) :
    (withoutRepeats counts earlier nodes).foldl step state = nodes.foldl step state := by
  induction nodes generalizing earlier state with
  | nil => rfl
  | cons node rest ih =>
    have skipsRest : ∀ state first, ∀ node ∈ rest, knows state first → first.id = node.id →
        step state node = state :=
      fun state first node mem => skips state first node (List.mem_cons_of_mem _ mem)
    by_cases repeated : (earlier.any fun first => counts first && first.id == node.id) = true
    · obtain ⟨first, firstMem, countsFirst, firstId⟩ : ∃ first ∈ earlier,
          counts first = true ∧ first.id = node.id := by
        simpa using repeated
      obtain ⟨same, sameId, knowsSame⟩ := known first firstMem countsFirst
      have idEq := sameId.trans firstId
      rw [withoutRepeats, if_pos repeated] at learns ⊢
      rw [List.foldl_cons, skips state same node List.mem_cons_self knowsSame idEq]
      apply ih learns skipsRest start
      rintro other (_ | ⟨_, otherMem⟩) countsOther
      · exact ⟨same, idEq, knowsSame⟩
      · exact known other otherMem countsOther
    · rw [withoutRepeats, if_neg repeated] at learns ⊢
      rw [List.foldl_cons, List.foldl_cons]
      apply ih
        (fun state held other mem => learns state held other (List.mem_cons_of_mem _ mem))
        skipsRest (stays state node start)
      rintro other (_ | ⟨_, otherMem⟩) countsOther
      · exact ⟨node, rfl, learns state start node List.mem_cons_self countsOther⟩
      · obtain ⟨same, sameId, knowsSame⟩ := known other otherMem countsOther
        refine ⟨same, sameId, keeps state same node knowsSame ?_⟩
        rw [sameId]
        intro idEq
        exact repeated (List.any_eq_true.mpr ⟨other, otherMem, by simp [countsOther, idEq]⟩)

/-! ## The technical perspective -/

/-- Where the first sight of a new id is a method, whatever the technical perspective
takes under this id is that method. -/
def Registry.RepeatsMethods (reg : Registry R) (nodes : List Node) : Prop :=
  ∀ first ∈ withoutRepeats (Perspective.technical.takes ·.kind) [] nodes,
    first.kind = .method → reg.containsNode first.id = false →
      ∀ node ∈ nodes, node.id = first.id → Perspective.technical.takes node.kind = true →
        node = first

namespace Ingest

/-- A method alone waits under its id, and a batch brings nothing else under it. -/
structure Waits (nodes : List Node) (state : Ingest R) (first : Node) : Prop where
  isMethod : first.kind = .method
  waiting : first ∈ state.pending.items
  alone : ∀ other ∈ state.pending.items, other.id = first.id → other = first
  repeated : ∀ node ∈ nodes, node.id = first.id →
    Perspective.technical.takes node.kind = true → node = first

/-- Nodes of a batch under this id change nothing any more. -/
def Knows (nodes : List Node) (state : Ingest R) (first : Node) : Prop :=
  state.registry.containsNode first.id = true ∨ state.Waits nodes first

variable {reg : Registry R} {state : Ingest R} {nodes : List Node} {first node : Node}

theorem Knows.skips (knows : state.Knows nodes first) (mem : node ∈ nodes)
    (sameId : first.id = node.id) : state.technicalNode node = state := by
  rcases knows with known | ⟨isMethod, waiting, alone, repeated⟩
  · exact technicalNode_of_known (sameId ▸ known)
  · cases taken : Perspective.technical.takes node.kind with
    | false =>
      simp only [Perspective.takes, Bool.or_eq_false_iff, beq_eq_false_iff_ne] at taken
      exact technicalNode_of_other taken.1 taken.2
    | true =>
      obtain rfl := repeated node mem sameId.symm taken
      cases known : state.registry.containsNode node.id with
      | true => exact technicalNode_of_known known
      | false =>
        have unchanged : state.pending.insert node = state.pending :=
          Store.insert_of_unique waiting alone
        rw [technicalNode_of_method known isMethod, unchanged]

theorem Knows.keeps (knows : state.Knows nodes first) (different : first.id ≠ node.id) :
    (state.technicalNode node).Knows nodes first := by
  rcases knows with known | ⟨isMethod, waiting, alone, repeated⟩
  · exact Or.inl ((containsNode_technicalNode state node first.id).mpr (Or.inl known))
  · right
    rcases technicalNode_cases state node with same | ⟨_, _, added⟩ | ⟨_, _, added⟩
    · rw [same]
      exact ⟨isMethod, waiting, alone, repeated⟩
    · rw [added]
      exact ⟨isMethod, waiting, alone, repeated⟩
    · rw [added]
      refine ⟨isMethod, Store.mem_insert.mpr (Or.inr ⟨waiting, different⟩), ?_, repeated⟩
      intro other otherMem sameId
      rcases Store.mem_insert.mp otherMem with rfl | ⟨old, _⟩
      · exact absurd sameId.symm different
      · exact alone other old sameId

theorem knows_technicalNode (steady : reg.RepeatsMethods nodes)
    (valid : ∀ id, reg.containsNode id = true → state.registry.containsNode id = true)
    (mem : node ∈ withoutRepeats (Perspective.technical.takes ·.kind) [] nodes)
    (taken : Perspective.technical.takes node.kind = true) :
    (state.technicalNode node).Knows nodes node := by
  cases known : state.registry.containsNode node.id with
  | true => exact Or.inl ((containsNode_technicalNode state node node.id).mpr (Or.inl known))
  | false =>
    simp only [Perspective.takes, Bool.or_eq_true, beq_iff_eq] at taken
    rcases taken with isClass | isMethod
    · exact Or.inl
        ((containsNode_technicalNode state node node.id).mpr (Or.inr ⟨rfl, isClass⟩))
    · right
      have new : reg.containsNode node.id = false := by
        rw [← Bool.not_eq_true]
        intro before
        rw [valid node.id before] at known
        cases known
      rw [technicalNode_of_method known isMethod]
      refine ⟨isMethod, Store.mem_insert.mpr (Or.inl rfl), ?_, steady node mem isMethod new⟩
      intro other otherMem sameId
      rcases Store.mem_insert.mp otherMem with same | ⟨_, different⟩
      · exact same
      · exact absurd sameId different

theorem technicalNodes_withoutRepeats (steady : reg.RepeatsMethods nodes) :
    (withoutRepeats (Perspective.technical.takes ·.kind) [] nodes).foldl technicalNode
        { registry := reg } = nodes.foldl technicalNode { registry := reg } := by
  apply foldl_withoutRepeats (fun (state : Ingest R) =>
    ∀ id, reg.containsNode id = true → state.registry.containsNode id = true) (Knows nodes)
  · intro state node valid id before
    exact (containsNode_technicalNode state node id).mpr (Or.inl (valid id before))
  · exact fun state valid node mem taken => knows_technicalNode steady valid mem taken
  · exact fun state first node knows different => knows.keeps different
  · exact fun state first node mem knows sameId => knows.skips mem sameId
  · exact fun id before => before
  · exact nofun

/-! ## The architecture perspective -/

theorem architectureNodes_withoutRepeats (state : Ingest R) (nodes : List Node) :
    (withoutRepeats (Perspective.architecture.takes ·.kind) [] nodes).foldl architectureNode
        state = nodes.foldl architectureNode state := by
  apply foldl_withoutRepeats (fun _ => True)
    fun (state : Ingest R) first => state.registry.containsNode first.id = true
  · exact fun _ _ _ => trivial
  · intro state _ node _ taken
    rw [containsNode_architectureNode]
    exact Or.inr ⟨rfl, taken⟩
  · intro state first node known _
    rw [containsNode_architectureNode]
    exact Or.inl known
  · intro state first node _ known sameId
    exact architectureNode_of_passed (Or.inl (sameId ▸ known))
  · trivial
  · exact nofun

end Ingest

/-! ## Whole batches -/

namespace Registry

/-- A package and a class with one id. -/
def packageThenClass : List Node :=
  [⟨"shop", ["Package"], []⟩, ⟨"shop", ["Class"], []⟩]

/-- A node that the perspective does not take leaves its id to a node behind it. -/
theorem addData_after_unseen :
    let registry := Engine.sampleStart.registry
    registry.Reachable none ∧
      registry.addData (withoutRepeats (fun _ => true) [] packageThenClass) [] ≠
        registry.addData packageThenClass [] := by
  refine ⟨.create _ _ _, ?_⟩
  intro same
  have counts := congrArg (fun result => result.1.classesAdded) same
  revert counts
  decide

/-- A batch is taken in like the batch without the nodes whose id came earlier on a
node that the perspective takes, if new methods are repeated as they are. -/
theorem addData_withoutRepeats (registry : Registry R) {nodes : List Node}
    (steady : registry.perspective = .technical → registry.RepeatsMethods nodes)
    (relationships : List Relationship) :
    registry.addData (withoutRepeats (registry.perspective.takes ·.kind) [] nodes) relationships =
      registry.addData nodes relationships := by
  cases perspective : registry.perspective with
  | technical =>
    simp only [addData, perspective, Ingest.technical,
      Ingest.technicalNodes_withoutRepeats (steady perspective)]
  | architecture =>
    simp only [addData, perspective, Ingest.architectureNodes_withoutRepeats]

/-- A package, two classes and a package have one id, and a method comes twice. -/
theorem addData_withoutRepeats_sample :
    let registry := Engine.sampleStart.registry
    let nodes : List Node := packageThenClass ++
      [⟨"shop", ["Class"], [("name", .string "other")]⟩, ⟨"order", ["Method"], []⟩,
        ⟨"shop", ["Package"], []⟩, ⟨"order", ["Method"], []⟩]
    registry.RepeatsMethods nodes ∧
      withoutRepeats (registry.perspective.takes ·.kind) [] nodes =
        packageThenClass ++ [⟨"order", ["Method"], []⟩] ∧
      registry.addData (packageThenClass ++ [⟨"order", ["Method"], []⟩])
          [⟨"1", "HAS_METHOD", "shop", "order", []⟩] =
        registry.addData nodes [⟨"1", "HAS_METHOD", "shop", "order", []⟩] := by
  intro registry nodes
  have firsts : withoutRepeats (Perspective.technical.takes ·.kind) [] nodes =
      packageThenClass ++ [⟨"order", ["Method"], []⟩] := rfl
  have steady : registry.RepeatsMethods nodes := by
    intro first mem isMethod _ node nodeMem sameId _
    simp only [firsts, packageThenClass, List.cons_append, List.nil_append, List.mem_cons,
      List.not_mem_nil, or_false] at mem
    rcases mem with rfl | rfl | rfl
    · exact absurd isMethod (by decide)
    · exact absurd isMethod (by decide)
    · simp only [nodes, packageThenClass, List.cons_append, List.nil_append, List.mem_cons,
        List.not_mem_nil, or_false] at nodeMem
      rcases nodeMem with rfl | rfl | rfl | rfl | rfl | rfl
      · exact absurd sameId (by decide)
      · exact absurd sameId (by decide)
      · exact absurd sameId (by decide)
      · rfl
      · exact absurd sameId (by decide)
      · rfl
  exact ⟨steady, firsts, addData_withoutRepeats registry (fun _ => steady) _⟩

end Registry

end CodeAtlas
