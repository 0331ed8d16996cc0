import CodeAtlas.Proofs.Registry.Additions
import CodeAtlas.Proofs.Registry.Names
import CodeAtlas.Proofs.Renumber.Basic

/-!
# The order of a batch

A batch is clean if no two of its nodes and no two of its relationships have one id,
and no two classes claim one of its methods.  A clean batch brings the same in every
order: classes come before claims and nodes before edges, whatever the order of the
batch, and nothing else in it competes.  Only the order of rows follows the batch, and
with it sizes and the numbers of resources.
-/

namespace CodeAtlas

variable {R : Type} [Scalar R] {reg : Registry R}

/-! ## First come, first served, in any order -/

theorem exists_mem_firstBy {α : Type} (key : α → String) {items : List α} {item : α}
    (mem : item ∈ items) : ∃ first ∈ firstBy key items, key first = key item := by
  match items, mem with
  | head :: rest, mem =>
    rw [firstBy_cons]
    by_cases same : key item = key head
    · exact ⟨head, List.mem_cons_self, same.symm⟩
    · have later : item ∈ rest := (List.mem_cons.mp mem).resolve_left
        fun isHead => same (congrArg key isHead)
      have other : item ∈ rest.filter fun other => key other != key head :=
        List.mem_filter.mpr ⟨later, by simpa using same⟩
      obtain ⟨first, firstMem, firstKey⟩ := exists_mem_firstBy key other
      exact ⟨first, List.mem_cons_of_mem _ firstMem, firstKey⟩
termination_by items.length
decreasing_by exact Nat.lt_succ_of_le (List.length_filter_le _ _)

/-- If things with one key look the same, then it does not show which of them came
first. -/
theorem perm_firstBy {α β : Type} {key : α → String} {view : α → β} {items others : List α}
    (perm : items.Perm others)
    (same : ∀ item ∈ items, ∀ other ∈ items, key item = key other ↔ view item = view other) :
    ((firstBy key items).map view).Perm ((firstBy key others).map view) := by
  have distinct : ∀ list : List α, list.Perm items → ((firstBy key list).map view).Nodup := by
    intro list listPerm
    obtain ⟨keys, within⟩ := firstBy_spec key list
    apply keys.of_map.map_on
    intro first firstMem second secondMem sameView
    have firstIn := listPerm.mem_iff.mp (within first firstMem)
    have secondIn := listPerm.mem_iff.mp (within second secondMem)
    exact List.inj_on_of_nodup_map keys firstMem secondMem
      ((same first firstIn second secondIn).mpr sameView)
  have views : ∀ list : List α, list.Perm items → ∀ seen,
      seen ∈ (firstBy key list).map view ↔ seen ∈ items.map view := by
    intro list listPerm seen
    rw [List.mem_map, List.mem_map]
    constructor
    · rintro ⟨first, firstMem, rfl⟩
      exact ⟨first, listPerm.mem_iff.mp ((firstBy_spec key list).2 first firstMem), rfl⟩
    · rintro ⟨item, mem, rfl⟩
      obtain ⟨first, firstMem, sameKey⟩ := exists_mem_firstBy key (listPerm.mem_iff.mpr mem)
      have firstIn := listPerm.mem_iff.mp ((firstBy_spec key list).2 first firstMem)
      exact ⟨first, firstMem, (same first firstIn item mem).mp sameKey⟩
  -- Which thing of a key came first depends on the order; what is seen of it does not.
  rw [List.perm_ext_iff_of_nodup (distinct items (.refl _)) (distinct others perm.symm)]
  intro seen
  rw [views items (.refl _), views others perm.symm]

theorem Store.get?_of_perm {α : Type} [Keyed α] {store other : Store α}
    (perm : store.items.Perm other.items) (distinct : store.keys.Nodup) (key : String) :
    other.get? key = store.get? key := by
  have otherDistinct : other.keys.Nodup := (perm.map Keyed.key).nodup_iff.mp distinct
  apply Option.ext
  intro item
  rw [get?_eq_some_iff distinct, get?_eq_some_iff otherDistinct, perm.mem_iff]

/-! ## Claims -/

/-- Who claims which method. -/
def Relationship.ends (claim : Relationship) : NodeId × NodeId :=
  (claim.source, claim.target)

theorem claimsOf_congr {owners others waiting left : List NodeId}
    (sameOwners : ∀ id, id ∈ owners ↔ id ∈ others) (sameWaiting : ∀ id, id ∈ waiting ↔ id ∈ left)
    (links : List Relationship) :
    claimsOf owners waiting links = claimsOf others left links := by
  rw [claimsOf, claimsOf]
  congr 2
  funext link
  simp only [List.contains_eq_mem, sameOwners, sameWaiting]

section

variable {claims others : List Relationship}
  (perm : (claims.map Relationship.ends).Perm (others.map Relationship.ends))
include perm

theorem mem_sources_iff (id : NodeId) :
    id ∈ others.map Relationship.source ↔ id ∈ claims.map Relationship.source := by
  have sources := perm.map Prod.fst
  rw [List.map_map, List.map_map] at sources
  exact sources.symm.mem_iff

theorem perm_rowsFor (classId : NodeId) :
    (rowsFor claims classId).Perm (rowsFor others classId) := by
  have asEnds : ∀ list : List Relationship, rowsFor list classId =
      ((list.map Relationship.ends).filter fun ends => ends.1 == classId).map Prod.snd := by
    intro list
    rw [rowsFor, List.filter_map, List.map_map]
    rfl
  rw [asEnds, asEnds]
  exact (perm.filter _).map _

theorem perm_claimedMethods {waiting left : Store Node}
    (sameWaiting : ∀ id, left.get? id = waiting.get? id) :
    (claims.filterMap (claimedMethod waiting)).Perm (others.filterMap (claimedMethod left)) := by
  have asEnds : ∀ list : List Relationship, list.filterMap (claimedMethod waiting) =
      (list.map Relationship.ends).filterMap fun ends =>
        (waiting.get? ends.2).map fun node => .ofNode node ends.1 := by
    intro list
    rw [List.filterMap_map]
    rfl
  have leftEq : claimedMethod left = claimedMethod waiting := by
    funext claim
    rw [claimedMethod, claimedMethod, sameWaiting]
  rw [leftEq, asEnds, asEnds]
  exact perm.filterMap _

end

namespace Registry

/-- No id comes twice among the nodes or among the relationships of a batch, and no
two classes claim one of its methods. -/
structure Clean (reg : Registry R) (nodes : List Node) (links : List Relationship) :
    Prop where
  nodeIds : (nodes.map Node.id).Nodup
  relationshipIds : (links.map Relationship.id).Nodup
  owner : ∀ method ∈ nodes, method.kind = .method → ∀ claim ∈ links,
    ∀ other ∈ links, claim.kind = .hasMethod → other.kind = .hasMethod →
      claim.target = method.id → other.target = method.id →
      claim.source ∈ reg.ownersWith nodes → other.source ∈ reg.ownersWith nodes →
        claim.source = other.source

/-- The claims of a batch that count. -/
def claimsIn (reg : Registry R) (nodes : List Node) (links : List Relationship) :
    List Relationship :=
  claimsOf (reg.ownersWith nodes) ((reg.newNodes (· == .method) nodes).map Node.id)
    links

omit [Scalar R] in
theorem perm_newNodes (reg : Registry R) (test : NodeKind → Bool) {nodes others : List Node}
    (perm : nodes.Perm others) :
    (reg.newNodes test nodes).Perm (reg.newNodes test others) :=
  perm.filter _

omit [Scalar R] in
/-- In any order of a clean batch, the same classes get the same methods. -/
theorem Clean.perm_claimsIn {nodes others : List Node} {links relations : List Relationship}
    (clean : reg.Clean nodes links) (nodesPerm : nodes.Perm others)
    (relationshipsPerm : links.Perm relations) :
    ((reg.claimsIn nodes links).map Relationship.ends).Perm
      ((reg.claimsIn others relations).map Relationship.ends) := by
  have owners : ∀ id, id ∈ reg.ownersWith others ↔ id ∈ reg.ownersWith nodes := by
    intro id
    exact (((nodesPerm.symm.filter _).map _).append_left _).mem_iff
  have waiting : ∀ id, id ∈ (reg.newNodes (· == .method) others).map Node.id ↔
      id ∈ (reg.newNodes (· == .method) nodes).map Node.id := by
    intro id
    exact ((reg.perm_newNodes _ nodesPerm.symm).map _).mem_iff
  rw [claimsIn, claimsIn, claimsOf_congr owners waiting]
  apply perm_firstBy (relationshipsPerm.filter _)
  intro claim claimMem other otherMem
  constructor
  · intro sameTarget
    -- Claims on one method may have different ids, but only one class makes them.
    simp only [List.mem_filter, Bool.and_eq_true, beq_iff_eq, List.contains_eq_mem,
      decide_eq_true_eq] at claimMem otherMem
    obtain ⟨claimIn, ⟨claimKind, claimOwner⟩, waits⟩ := claimMem
    obtain ⟨otherIn, ⟨otherKind, otherOwner⟩, _⟩ := otherMem
    obtain ⟨method, methodMem, methodId⟩ := List.mem_map.mp waits
    obtain ⟨methodIn, isNew⟩ := List.mem_filter.mp methodMem
    have methodKind : method.kind = .method := by simp_all
    have sameSource := clean.owner method methodIn methodKind claim claimIn other otherIn claimKind
      otherKind methodId.symm (sameTarget ▸ methodId.symm) claimOwner otherOwner
    exact Prod.ext sameSource sameTarget
  · exact congrArg Prod.snd

end Registry

/-! ## Maps that are the same but for order and resources -/

/-- Classes that differ in nothing but the order of their rows, their size and the
numbers of their resources. -/
structure ClassNode.Alike (node other : ClassNode R) : Prop where
  same : other = { node with
    methods := other.methods
    size := other.size
    headerLabel := other.headerLabel
    outline := other.outline }
  rows : node.methods.Perm other.methods
  headed : other.headerLabel.isSome = node.headerLabel.isSome
  outlined : other.outline.isSome = node.outline.isSome

/-- Methods that differ in nothing but the number of their label. -/
structure Method.Alike (row other : Method) : Prop where
  same : other = { row with label := other.label }
  labelled : other.label.isSome = row.label.isSome

/-- Standalone nodes that differ in nothing but the numbers of their resources. -/
structure StandaloneNode.Alike (node other : StandaloneNode R) : Prop where
  same : other = { node with label := other.label, outline := other.outline }
  labelled : other.label.isSome = node.label.isSome
  outlined : other.outline.isSome = node.outline.isSome

/-- A standalone node without the numbers of its resources. -/
def StandaloneNode.unnumbered (node : StandaloneNode R) : StandaloneNode R :=
  { node with label := none, outline := none }

section
omit [Scalar R]

theorem StandaloneNode.key_unnumbered (node : StandaloneNode R) :
    Keyed.key node.unnumbered = Keyed.key node :=
  rfl

theorem StandaloneNode.alike_of_unnumbered {node other : StandaloneNode R}
    (same : other.unnumbered = node.unnumbered)
    (drawn : node.label.isSome = true ∧ node.outline.isSome = true)
    (drawnAgain : other.label.isSome = true ∧ other.outline.isSome = true) :
    node.Alike other := by
  refine ⟨?_, drawnAgain.1.trans drawn.1.symm, drawnAgain.2.trans drawn.2.symm⟩
  cases node
  cases other
  simp_all [unnumbered]

/-- However its class is refreshed, a row is alike. -/
theorem Method.Renewed.alike {node : ClassNode R} {given less : ResourceId}
    {row renewed other : Method} (renews : row.Renewed node given renewed)
    (again : row.Renewed node less other) : renewed.Alike other := by
  cases renews with
  | kept current =>
    cases again with
    | kept => exact ⟨rfl, rfl⟩
    | relabelled _ _ shown outdated => exact absurd (current shown) outdated
  | relabelled _ _ shown outdated =>
    cases again with
    | kept current => exact absurd (current shown) outdated
    | relabelled => exact ⟨rfl, rfl⟩

end

/-- Stores that have related things under the same keys, in any order. -/
def Store.Matches {α : Type} [Keyed α] (relation : α → α → Prop) (store other : Store α) : Prop :=
  ∀ key, Option.Rel relation (store.get? key) (other.get? key)

theorem Store.Matches.contains_eq {α : Type} [Keyed α] {relation : α → α → Prop}
    {store other : Store α} (alike : store.Matches relation other) (key : String) :
    other.contains key = store.contains key := by
  have held := alike key
  rw [Bool.eq_iff_iff, contains_iff, contains_iff, ← not_iff_not, ← get?_eq_none_iff,
    ← get?_eq_none_iff]
  generalize store.get? key = found, other.get? key = related at held ⊢
  cases held <;> simp

theorem Store.Matches.refl {α : Type} [Keyed α] {relation : α → α → Prop}
    (reflexive : ∀ item, relation item item) (store : Store α) :
    store.Matches relation store := by
  intro key
  cases store.get? key with
  | none => exact .none
  | some item => exact .some (reflexive item)

/-- Things in two stores match if they look the same in a view that keeps keys, and
looking the same relates them. -/
theorem Store.matches_of_perm {α : Type} [Keyed α] {relation : α → α → Prop} {view : α → α}
    (keeps : ∀ item, Keyed.key (view item) = Keyed.key item) {store other : Store α}
    (perm : (store.items.map view).Perm (other.items.map view)) (distinct : store.keys.Nodup)
    (related : ∀ item ∈ store.items, ∀ second ∈ other.items, view second = view item →
      relation item second) : store.Matches relation other := by
  intro key
  have sameKeys : (store.map view).keys = store.keys := by
    simp [keys, map, Function.comp_def, keeps]
  have seen : (other.map view).get? key = (store.map view).get? key :=
    get?_of_perm perm (sameKeys ▸ distinct) key
  rw [get?_map keeps, get?_map keeps] at seen
  cases found : store.get? key with
  | none =>
    rw [found, Option.map_none, Option.map_eq_none_iff] at seen
    rw [seen]
    exact .none
  | some item =>
    rw [found, Option.map_some, Option.map_eq_some_iff] at seen
    obtain ⟨second, secondFound, looks⟩ := seen
    rw [secondFound]
    exact .some (related item (mem_of_get? found) second (mem_of_get? secondFound) looks)

namespace Registry

/-- Maps with the same classes, methods and standalone nodes, but for the order of
lists, the sizes of classes and the numbers of resources. -/
structure NodesMatch (reg other : Registry R) : Prop where
  classes : reg.classes.Matches ClassNode.Alike other.classes
  methods : reg.methods.Matches Method.Alike other.methods
  standalone : reg.standalone.Matches StandaloneNode.Alike other.standalone

/-- Maps that have the same edges, too. -/
structure Matches (reg other : Registry R) : Prop extends reg.NodesMatch other where
  frame : (other.perspective, other.setup) = (reg.perspective, reg.setup)
  edges : ∀ id, other.edges.get? id = reg.edges.get? id

omit [Scalar R] in
theorem NodesMatch.containsNode_eq {reg other : Registry R}
    (alike : reg.NodesMatch other) : other.containsNode = reg.containsNode := by
  funext id
  rw [containsNode, containsNode, alike.classes.contains_eq, alike.methods.contains_eq,
    alike.standalone.contains_eq]

/-! ## Classes and methods -/

theorem keys_classes_joined (reg : Registry R) (nodes : List Node) (claims : List Relationship) :
    (reg.joined nodes claims).classes.keys = reg.ownersWith nodes := by
  simp only [Store.keys, joined, ownersWith, newNodes, List.map_map, List.map_append]
  rfl

/-- What the passes over nodes and claims make of a map, by the claims that count. -/
theorem Reachable.refreshes_claimsIn {drawn : Option (SequenceView R)}
    (reachable : reg.Reachable drawn) (technical : reg.perspective = .technical)
    {nodes : List Node} (distinct : (nodes.map Node.id).Nodup) (links : List Relationship) :
    let state := reg.withNodes nodes links
    let claims := reg.claimsIn nodes links
    (reg.joined nodes claims).Coherent ∧
    (∃ ids, (∀ id, id ∈ ids ↔ id ∈ (reg.newNodes (· == .classType) nodes).map Node.id ∨
      id ∈ claims.map Relationship.source) ∧
      (reg.joined nodes claims).Refreshes ids state.registry) ∧
    state.report = {
      classesAdded := (reg.newNodes (· == .classType) nodes).length
      methodsAdded := claims.length } := by
  intro state claims
  obtain ⟨coherent, _, _, ⟨ids, touched, refreshes⟩, report⟩ :=
    reachable.refreshes_withNodes technical distinct links
  have owners : state.registry.classes.keys = reg.ownersWith nodes := by
    rw [← keys_bare_classes, refreshes.bare, keys_bare_classes, keys_classes_joined]
  rw [owners] at coherent touched refreshes report
  exact ⟨coherent, ⟨ids, touched, refreshes⟩, report⟩

section Joined

variable {reg : Registry R} {nodes others : List Node} {claims counted : List Relationship}
  (perm : nodes.Perm others)
  (claimsPerm : (claims.map Relationship.ends).Perm (counted.map Relationship.ends))

include perm claimsPerm in
/-- A class comes with the same rows, in some order. -/
theorem get?_classes_joined_of_perm (coherent : (reg.joined nodes claims).Coherent)
    (id : NodeId) (node : ClassNode R)
    (found : (reg.joined nodes claims).classes.get? id = some node) :
    ∃ rows, node.methods.Perm rows ∧
      (reg.joined others counted).classes.get? id = some { node with methods := rows } := by
  let unclaimed (nodes : List Node) : Store (ClassNode R) := ⟨reg.classes.items ++
    (reg.newNodes (· == NodeKind.classType) nodes).map fun node =>
      ClassNode.ofNode node reg.defaultToggles⟩
  have lookup : ∀ (nodes : List Node) (claims : List Relationship),
      (reg.joined nodes claims).classes.get? id =
        ((unclaimed nodes).get? id).map (ClassNode.withRows · claims) := by
    intro nodes claims
    have keeps : ∀ node : ClassNode R, Keyed.key (node.withRows claims) = Keyed.key node :=
      fun _ => rfl
    exact Store.get?_map keeps (unclaimed nodes) id
  have keys : (reg.joined nodes claims).classes.keys = (unclaimed nodes).keys :=
    List.map_map
  have distinct : (unclaimed nodes).keys.Nodup := keys ▸ coherent.classKeys
  have sameFound : (unclaimed others).get? id = (unclaimed nodes).get? id :=
    Store.get?_of_perm (((reg.perm_newNodes _ perm).map _).append_left _) distinct id
  rw [lookup] at found ⊢
  obtain ⟨base, baseFound, rfl⟩ := Option.map_eq_some_iff.mp found
  rw [sameFound, baseFound]
  exact ⟨_, (perm_rowsFor claimsPerm base.id).append_left _, rfl⟩

include perm claimsPerm in
/-- The same methods come to the same classes. -/
theorem get?_methods_joined_of_perm (distinct : (nodes.map Node.id).Nodup)
    (coherent : (reg.joined nodes claims).Coherent) (id : NodeId) :
    (reg.joined others counted).methods.get? id =
      (reg.joined nodes claims).methods.get? id := by
  have waitingDistinct : (Store.mk (reg.newNodes (· == .method) nodes)).keys.Nodup :=
    distinct.sublist (List.filter_sublist.map _)
  have waiting : ∀ id, (Store.mk (reg.newNodes (· == .method) others)).get? id =
      (Store.mk (reg.newNodes (· == .method) nodes)).get? id :=
    Store.get?_of_perm (reg.perm_newNodes (· == .method) perm) waitingDistinct
  apply Store.get?_of_perm _ coherent.methodKeys
  exact (perm_claimedMethods claimsPerm waiting).append_left _

end Joined

section Refreshed

variable {reg other middle after : Registry R} {ids listed : List NodeId}
  (refreshes : reg.Refreshes ids middle) (again : other.Refreshes listed after)
  (coherent : reg.Coherent)
  (classes : ∀ (id : NodeId) (node : ClassNode R), reg.classes.get? id = some node →
    ∃ rows, node.methods.Perm rows ∧ other.classes.get? id = some { node with methods := rows })
  (classKeys : ∀ id, id ∈ other.classes.keys → id ∈ reg.classes.keys)

include refreshes again classes classKeys in
/-- Classes that are alike are alike once they are up to date and drawn. -/
theorem matches_classes_of_refreshes (drawn : ∀ node ∈ middle.classes.items,
      node.headerLabel.isSome = true ∧ node.outline.isSome = true)
    (drawnAgain : ∀ node ∈ after.classes.items,
      node.headerLabel.isSome = true ∧ node.outline.isSome = true) :
    middle.classes.Matches ClassNode.Alike after.classes := by
  intro id
  have keys : middle.classes.keys = reg.classes.keys := by
    rw [← keys_bare_classes, refreshes.bare, keys_bare_classes]
  have afterKeys : after.classes.keys = other.classes.keys := by
    rw [← keys_bare_classes, again.bare, keys_bare_classes]
  cases found : reg.classes.get? id with
  | none =>
    have absent := Store.get?_eq_none_iff.mp found
    have noClass : middle.classes.get? id = none := by
      rwa [Store.get?_eq_none_iff, keys]
    have stillNone : after.classes.get? id = none := by
      rw [Store.get?_eq_none_iff, afterKeys]
      exact fun known => absent (classKeys id known)
    rw [noClass, stillNone]
    exact .none
  | some node =>
    obtain ⟨rows, rowsPerm, otherFound⟩ := classes _ _ found
    obtain ⟨redrawn, redrawnFound, draws, _⟩ := refreshes.classes found
    obtain ⟨second, secondFound, drawsAgain, _⟩ := again.classes otherFound
    obtain ⟨headed, outlined⟩ := drawn redrawn (Store.mem_of_get? redrawnFound)
    obtain ⟨headedAgain, outlinedAgain⟩ := drawnAgain second (Store.mem_of_get? secondFound)
    rw [redrawnFound, secondFound]
    refine .some ⟨?_, ?_, headedAgain.trans headed.symm, outlinedAgain.trans outlined.symm⟩
    · rw [drawsAgain.same, draws.same]
    · rw [drawsAgain.same, draws.same]
      exact rowsPerm

include refreshes again coherent classes in
/-- The same rows of classes that are alike are alike once they are up to date. -/
theorem matches_methods_of_refreshes (methods : ∀ id, other.methods.get? id = reg.methods.get? id)
    (touched : ∀ id, id ∈ listed ↔ id ∈ ids) :
    middle.methods.Matches Method.Alike after.methods := by
  intro id
  have keys : middle.methods.keys = reg.methods.keys := by
    rw [← keys_bare_methods, refreshes.bare, keys_bare_methods]
  have afterKeys : after.methods.keys = other.methods.keys := by
    rw [← keys_bare_methods, again.bare, keys_bare_methods]
  cases found : reg.methods.get? id with
  | none =>
    have noRow : middle.methods.get? id = none := by
      rwa [Store.get?_eq_none_iff, keys, ← Store.get?_eq_none_iff]
    have stillNone : after.methods.get? id = none := by
      rwa [Store.get?_eq_none_iff, afterKeys, ← Store.get?_eq_none_iff, methods]
    rw [noRow, stillNone]
    exact .none
  | some row =>
    obtain ⟨owner, ownerMem, ownerId, _⟩ := coherent.owner row (Store.mem_of_get? found)
    have ownerFound : reg.classes.get? row.classId = some owner :=
      (Store.get?_eq_some_iff coherent.classKeys).mpr ⟨ownerMem, ownerId⟩
    obtain ⟨rows, _, otherFound⟩ := classes _ _ ownerFound
    obtain ⟨renewed, renewedFound, same, renews⟩ := refreshes.methods found ownerFound
    obtain ⟨second, secondFound, sameAgain, renewsAgain⟩ :=
      again.methods ((methods id).trans found) otherFound
    rw [renewedFound, secondFound]
    by_cases stale : row.classId ∈ ids
    · have renewedAgain : row.Renewed owner _ second :=
        (renewsAgain ((touched _).mpr stale)).of_same rfl rfl rfl
      exact .some ((renews stale).alike renewedAgain)
    · rw [same stale, sameAgain fun mem => stale ((touched _).mp mem)]
      exact .some ⟨rfl, rfl⟩

end Refreshed

/-- But for edges, the map after the nodes of a batch is the map after the batch. -/
theorem Reachable.exists_edges_withNodes {drawn : Option (SequenceView R)}
    (reachable : reg.Reachable drawn) (nodes : List Node) (links : List Relationship) :
    ∃ edges, { (reg.withNodes nodes links).registry with edges }.Reachable drawn := by
  have next : (reg.addData nodes links).2.Reachable drawn :=
    reachable.operate (.addData nodes links) (Or.inr rfl)
  have taken : (reg.withNodes nodes links).EdgesTaken _
    (reg.withData nodes links) := Ingest.edgesTaken_of_edges
  rw [addData_eq, taken.registry] at next
  exact ⟨_, next⟩

section Batches

variable {reg : Registry R} {drawn : Option (SequenceView R)} {nodes others : List Node}
  {links relations : List Relationship} (reachable : reg.Reachable drawn)
  (clean : reg.Clean nodes links) (nodesPerm : nodes.Perm others)
  (relationshipsPerm : links.Perm relations)

include reachable clean nodesPerm relationshipsPerm in
theorem nodesMatch_of_technical (technical : reg.perspective = .technical) :
    let state := reg.withNodes nodes links
    let other := reg.withNodes others relations
    other.report = state.report ∧ state.registry.NodesMatch other.registry := by
  have distinct : (others.map Node.id).Nodup := (nodesPerm.map _).nodup_iff.mp clean.nodeIds
  have claimsPerm := clean.perm_claimsIn nodesPerm relationshipsPerm
  have newPerm := reg.perm_newNodes (· == .classType) nodesPerm
  obtain ⟨coherent, ⟨ids, touched, refreshes⟩, report⟩ :=
    reachable.refreshes_claimsIn technical clean.nodeIds links
  obtain ⟨_, ⟨listed, touchedAgain, again⟩, reportAgain⟩ :=
    reachable.refreshes_claimsIn technical distinct relations
  obtain ⟨_, next⟩ := reachable.exists_edges_withNodes nodes links
  obtain ⟨_, nextAgain⟩ := reachable.exists_edges_withNodes others relations
  have classes := get?_classes_joined_of_perm nodesPerm claimsPerm coherent
  refine ⟨?_, ?_, ?_, ?_⟩
  · have counted : (reg.claimsIn others relations).length =
        (reg.claimsIn nodes links).length := by
      simpa using claimsPerm.length_eq.symm
    rw [report, reportAgain, counted, newPerm.length_eq]
  · refine matches_classes_of_refreshes refreshes again classes ?_
      (fun node mem => next.settled.boxes node mem List.not_mem_nil)
      fun node mem => nextAgain.settled.boxes node mem List.not_mem_nil
    intro id known
    rw [keys_classes_joined] at known ⊢
    exact ((newPerm.symm.map _).append_left _).mem_iff.mp known
  · refine matches_methods_of_refreshes refreshes again coherent classes
      (get?_methods_joined_of_perm nodesPerm claimsPerm clean.nodeIds coherent) ?_
    intro id
    rw [touched, touchedAgain, mem_sources_iff claimsPerm, (newPerm.map Node.id).mem_iff]
  · rw [refreshes.standalone, again.standalone]
    exact .refl (fun _ => ⟨rfl, rfl, rfl⟩) _

/-! ## Boxes -/

/-- But for numbers, boxes are as their nodes describe them. -/
theorem map_unnumbered_of_boxed {pool : Pool R} {boxes : List (StandaloneNode R)}
    (boxed : List.Forall₂ (reg.Boxed pool) nodes boxes) :
    boxes.map StandaloneNode.unnumbered =
      nodes.map fun node => (reg.boxOf node 0 0).unnumbered := by
  rw [eq_comm, ← List.forall₂_eq_eq_eq, List.forall₂_map_right_iff, List.forall₂_map_left_iff]
  apply boxed.imp
  rintro node box ⟨label, outline⟩
  rfl

include reachable clean nodesPerm in
theorem nodesMatch_of_architecture (architecture : reg.perspective = .architecture) :
    let state := reg.withNodes nodes links
    let other := reg.withNodes others relations
    other.report = state.report ∧ state.registry.NodesMatch other.registry := by
  intro state other
  have distinct : (others.map Node.id).Nodup := (nodesPerm.map _).nodup_iff.mp clean.nodeIds
  have newPerm := reg.perm_newNodes NodeKind.isStandalone nodesPerm
  obtain ⟨⟨boxes, after, boxed⟩, _, _, report⟩ :=
    boxesTaken_withNodes architecture clean.nodeIds links
  obtain ⟨⟨boxesAgain, afterAgain, boxedAgain⟩, _, _, reportAgain⟩ :=
    boxesTaken_withNodes architecture distinct relations
  obtain ⟨_, next⟩ := reachable.exists_edges_withNodes nodes links
  obtain ⟨_, nextAgain⟩ := reachable.exists_edges_withNodes others relations
  have items : state.registry.standalone.items = reg.standalone.items ++ boxes :=
    congrArg (fun map : Registry R => map.standalone.items) after
  have itemsAgain : other.registry.standalone.items = reg.standalone.items ++ boxesAgain :=
    congrArg (fun map : Registry R => map.standalone.items) afterAgain
  refine ⟨?_, ?_, ?_, ?_⟩
  · rw [report, reportAgain, newPerm.length_eq]
  · rw [after, afterAgain]
    exact .refl (fun _ => ⟨rfl, .refl _, rfl, rfl⟩) _
  · rw [after, afterAgain]
    exact .refl (fun _ => ⟨rfl, rfl⟩) _
  · apply Store.matches_of_perm StandaloneNode.key_unnumbered ?_ next.coherent.standaloneKeys
    · intro box mem second secondMem same
      exact StandaloneNode.alike_of_unnumbered same (next.settled.standalone box mem)
        (nextAgain.settled.standalone second secondMem)
    · rw [items, itemsAgain, List.map_append, List.map_append, map_unnumbered_of_boxed boxed,
        map_unnumbered_of_boxed boxedAgain]
      exact (newPerm.map _).append_left _

include reachable clean nodesPerm relationshipsPerm in
/-- In any order, the nodes of a clean batch bring the same. -/
theorem nodesMatch_withNodes :
    let state := reg.withNodes nodes links
    let other := reg.withNodes others relations
    other.report = state.report ∧ state.registry.NodesMatch other.registry := by
  cases perspective : reg.perspective with
  | technical =>
    exact nodesMatch_of_technical reachable clean nodesPerm relationshipsPerm perspective
  | architecture => exact nodesMatch_of_architecture reachable clean nodesPerm perspective

end Batches

end Registry

/-! ## Edges -/

/-- The relationships that cannot become edges because an end is missing. -/
def lostOf (taken : List EdgeId) (onMap : NodeId → Bool) (links : List Relationship) :
    List Relationship :=
  links.filter fun link =>
    link.kind != .hasMethod && !taken.contains link.id &&
      !(onMap link.source && onMap link.target)

theorem perm_linksOf {taken : List EdgeId} {onMap : NodeId → Bool}
    {links relations : List Relationship} (perm : links.Perm relations)
    (distinct : (links.map Relationship.id).Nodup) :
    (linksOf taken onMap links).Perm (linksOf taken onMap relations) := by
  rw [← List.map_id (linksOf taken onMap links), ← List.map_id (linksOf taken onMap relations)]
  apply perm_firstBy (perm.filter _)
  intro link linkMem other otherMem
  exact ⟨List.inj_on_of_nodup_map distinct (List.mem_of_mem_filter linkMem)
    (List.mem_of_mem_filter otherMem), congrArg Relationship.id⟩

namespace Ingest

omit [Scalar R] in
theorem edgesDropped_edge (state : Ingest R) (link : Relationship) :
    (state.edge link).report.edgesDropped = state.report.edgesDropped +
      (lostOf state.registry.edges.keys state.registry.containsNode [link]).length := by
  have taken : state.registry.edges.contains link.id =
      state.registry.edges.keys.contains link.id := by
    rw [Bool.eq_iff_iff, Store.contains_iff, List.contains_iff_mem]
  unfold edge
  dsimp only
  rw [isRendered_eq, taken]
  split
  · next skipped =>
      rcases Bool.or_eq_true_iff.mp skipped with owned | old <;>
        rw [lostOf, List.filter_cons_of_neg (by simp_all)] <;> rfl
  · next rendered =>
      split
      · next missing =>
          rw [lostOf, List.filter_cons_of_pos (by simp_all)]
          rfl
      · next joined =>
          rw [lostOf, List.filter_cons_of_neg (by simp_all)]
          rfl

omit [Scalar R] in
/-- If no two relationships have one id, each is dropped for its own ends only. -/
theorem edgesDropped_edges {links : List Relationship} {state : Ingest R}
    (distinct : (links.map Relationship.id).Nodup) :
    (links.foldl edge state).report.edgesDropped = state.report.edgesDropped +
      (lostOf state.registry.edges.keys state.registry.containsNode links).length := by
  induction links generalizing state with
  | nil => rfl
  | cons link rest ih =>
    obtain ⟨absent, restDistinct⟩ := List.nodup_cons.mp distinct
    have nodesKept : (state.edge link).registry.containsNode =
        state.registry.containsNode := funext (containsNode_edges [link] state)
    -- The edge that may have come takes no id of the relationships behind it.
    have others : lostOf (state.edge link).registry.edges.keys
        state.registry.containsNode rest =
          lostOf state.registry.edges.keys state.registry.containsNode rest := by
      apply List.filter_congr
      intro other mem
      have different : link.id ≠ other.id := fun same =>
        absent (same ▸ List.mem_map_of_mem mem)
      have taken := (keys_edge state link other.id).1
      simp only [List.contains_eq_mem, taken, different, false_and, or_false]
    have split : lostOf state.registry.edges.keys state.registry.containsNode
        (link :: rest) =
          lostOf state.registry.edges.keys state.registry.containsNode [link] ++
            lostOf state.registry.edges.keys state.registry.containsNode rest :=
      List.filter_append [link] rest
    rw [List.foldl_cons, ih restDistinct, nodesKept, others,
      edgesDropped_edge, split, List.length_append, Nat.add_assoc]

section Links

variable {state other : Ingest R} {links relations : List Relationship}
  (edges : other.registry.edges = state.registry.edges)
  (nodes : other.registry.containsNode = state.registry.containsNode)
  (perm : links.Perm relations)
  (distinct : (links.map Relationship.id).Nodup)

omit [Scalar R] in
include edges nodes perm distinct in
theorem report_edges_of_perm (report : other.report = state.report) :
    (relations.foldl edge other).report = (links.foldl edge state).report := by
  have taken : state.EdgesTaken _ (links.foldl edge state) := edgesTaken_of_edges
  have takenAgain : other.EdgesTaken _ (relations.foldl edge other) := edgesTaken_of_edges
  obtain ⟨drops, counted⟩ := taken.report
  obtain ⟨dropsAgain, countedAgain⟩ := takenAgain.report
  have dropped : (links.foldl edge state).report.edgesDropped = _ :=
    edgesDropped_edges distinct
  have droppedAgain : (relations.foldl edge other).report.edgesDropped = _ :=
    edgesDropped_edges ((perm.map _).nodup_iff.mp distinct)
  rw [counted] at dropped
  rw [countedAgain, edges, nodes, report] at droppedAgain
  have lost : (lostOf state.registry.edges.keys state.registry.containsNode relations).Perm
      (lostOf state.registry.edges.keys state.registry.containsNode links) :=
    perm.symm.filter _
  rw [lost.length_eq] at droppedAgain
  have sameDrops : dropsAgain = drops := droppedAgain.trans dropped.symm
  rw [counted, countedAgain, sameDrops, edges, nodes, report,
    (perm_linksOf perm distinct).length_eq]

omit [Scalar R] in
include edges nodes perm distinct in
theorem get?_edges_of_perm
    (keys : (links.foldl edge state).registry.edges.keys.Nodup) (id : EdgeId) :
    (relations.foldl edge other).registry.edges.get? id =
      (links.foldl edge state).registry.edges.get? id := by
  have taken : state.EdgesTaken _ (links.foldl edge state) := edgesTaken_of_edges
  have takenAgain : other.EdgesTaken _ (relations.foldl edge other) := edgesTaken_of_edges
  apply Store.get?_of_perm _ keys
  rw [taken.registry, takenAgain.registry, edges, nodes]
  exact ((perm_linksOf perm distinct).map _).append_left _

end Links

end Ingest

namespace Registry

/-! ## The whole batch -/

/-- On every reachable map, a clean batch brings the same in every order: the reports
are equal, and the maps differ in nothing but the order of lists, the sizes of classes
and the numbers of resources. -/
theorem addData_perm {registry : Registry R} {drawn : Option (SequenceView R)}
    (reachable : registry.Reachable drawn) {nodes others : List Node}
    {relationships relations : List Relationship} (clean : registry.Clean nodes relationships)
    (nodesPerm : nodes.Perm others) (relationshipsPerm : relationships.Perm relations) :
    (registry.addData others relations).1 = (registry.addData nodes relationships).1 ∧
      (registry.addData nodes relationships).2.Matches (registry.addData others relations).2 := by
  have distinct : (others.map Node.id).Nodup := (nodesPerm.map _).nodup_iff.mp clean.nodeIds
  have next : (registry.addData nodes relationships).2.Reachable drawn :=
    reachable.operate (.addData nodes relationships) (Or.inr rfl)
  have frame := reachable.coherent.frame_addData nodes relationships
  have frameAgain := reachable.coherent.frame_addData others relations
  obtain ⟨report, alike⟩ := nodesMatch_withNodes reachable clean nodesPerm relationshipsPerm
  have edges : (registry.withNodes others relations).registry.edges =
      (registry.withNodes nodes relationships).registry.edges := by
    rw [(reachable.counts_withNodes distinct relations).1,
      (reachable.counts_withNodes clean.nodeIds relationships).1]
  obtain ⟨classes, methods, standalone⟩ :=
    Ingest.nodes_edges relationships (registry.withNodes nodes relationships)
  obtain ⟨classesAgain, methodsAgain, standaloneAgain⟩ :=
    Ingest.nodes_edges relations (registry.withNodes others relations)
  refine ⟨Ingest.report_edges_of_perm edges alike.containsNode_eq relationshipsPerm
    clean.relationshipIds report, ⟨?_, ?_, ?_⟩, frameAgain.trans frame.symm,
    Ingest.get?_edges_of_perm edges alike.containsNode_eq relationshipsPerm
      clean.relationshipIds next.coherent.edgeKeys⟩
  · rw [addData_eq, addData_eq, withData, withData, classes, classesAgain]
    exact alike.classes
  · rw [addData_eq, addData_eq, withData, withData, methods, methodsAgain]
    exact alike.methods
  · rw [addData_eq, addData_eq, withData, withData, standalone, standaloneAgain]
    exact alike.standalone

/-- A class claims one method twice, a class that is not on the map claims another,
which goes to a class that was there, a package goes unseen, and one edge is dropped. -/
theorem addData_perm_sample :
    let registry := Engine.sampleStart.registry.apply (.addData
      [⟨"shop", ["Class"], []⟩, ⟨"order", ["Method"], []⟩]
      [⟨"1", "HAS_METHOD", "shop", "order", []⟩])
    let nodes : List Node := [⟨"bank", ["Class"], []⟩, ⟨"pay", ["Method"], []⟩,
      ⟨"audit", ["Method"], []⟩, ⟨"core", ["Package"], []⟩]
    let relationships : List Relationship := [⟨"2", "HAS_METHOD", "bank", "pay", []⟩,
      ⟨"3", "HAS_METHOD", "bank", "pay", []⟩, ⟨"4", "HAS_METHOD", "nobody", "audit", []⟩,
      ⟨"5", "HAS_METHOD", "shop", "audit", []⟩, ⟨"6", "CALLS", "order", "pay", []⟩,
      ⟨"7", "CALLS", "pay", "core", []⟩]
    registry.Clean nodes relationships ∧
    (registry.addData nodes.reverse relationships.reverse).1 =
      (registry.addData nodes relationships).1 ∧
    (registry.addData nodes relationships).2.Matches
      (registry.addData nodes.reverse relationships.reverse).2 := by
  intro registry nodes relationships
  have start := coherent_create Engine.sampleStart.registry.metrics
    Engine.sampleStart.registry.defaultToggles Engine.sampleStart.registry.text
  have classKeys : registry.classes.keys = ["shop"] :=
    (start.keys_addData rfl [⟨"shop", ["Class"], []⟩, ⟨"order", ["Method"], []⟩]
      [⟨"1", "HAS_METHOD", "shop", "order", []⟩]).1.trans (by decide)
  have reachable : registry.Reachable none :=
    (Reachable.create _ _ _).operate (.addData _ _) (Or.inl rfl)
  have noOwner : "nobody" ∉ registry.ownersWith nodes := by
    rw [ownersWith, classKeys, List.mem_append, List.mem_map]
    rintro (old | ⟨node, mem, named⟩)
    · exact absurd old (by decide)
    · have listed : "nobody" ∈ nodes.map Node.id :=
        List.mem_map.mpr ⟨node, List.mem_of_mem_filter mem, named⟩
      exact absurd listed (by decide)
  have oneOwner : ∀ claim ∈ relationships, ∀ other ∈ relationships,
      claim.kind = .hasMethod → other.kind = .hasMethod → claim.target = other.target →
        claim.source ≠ "nobody" → other.source ≠ "nobody" → claim.source = other.source := by
    decide
  have clean : registry.Clean nodes relationships := by
    refine ⟨by decide, by decide, ?_⟩
    intro method _ _ claim claimMem other otherMem claimKind otherKind target otherTarget owner
      otherOwner
    exact oneOwner claim claimMem other otherMem claimKind otherKind
      (target.trans otherTarget.symm) (fun same => noOwner (same ▸ owner))
      fun same => noOwner (same ▸ otherOwner)
  exact ⟨clean, addData_perm reachable clean nodes.reverse_perm.symm
    relationships.reverse_perm.symm⟩

end Registry

end CodeAtlas
