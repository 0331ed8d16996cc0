import CodeAtlas.Proofs.Layout.Forest

/-!
# Edges that do not count

The tree layout looks at edges only through the links between boxes that they
make, and each link counts once.  So an edge that makes no link, or makes one
that an edge before it has made, may stand anywhere or be left out.  Every other
edge adds a link to those before it.
-/

namespace CodeAtlas

theorem lastIndex?_eq_none_iff {ids : List NodeId} {id : NodeId} :
    lastIndex? ids id = none ↔ id ∉ ids := by
  constructor
  · intro missing mem
    rcases List.get_of_mem mem with ⟨index, rfl⟩
    have differs := List.find?_eq_none.mp missing index (by simp)
    exact differs (beq_self_eq_true _)
  · intro unlisted
    cases found : lastIndex? ids id with
    | none => rfl
    | some index => exact absurd (get_of_lastIndex? found ▸ List.get_mem ids index) unlisted

namespace LayoutEdge

variable {ids : List NodeId} {before : List LayoutEdge} {edge : LayoutEdge}

/-- The edge tells the tree nothing new after the edges before it. -/
inductive Ignorable (ids : List NodeId) (before : List LayoutEdge) (edge : LayoutEdge) : Prop where
  /-- The tree does not follow edges of its kind. -/
  | unfollowed (kind : edge.kind.isCallLike = false)
  /-- It leads back to where it starts. -/
  | loop (same : edge.source = edge.target)
  /-- One of its ends is no box. -/
  | loose (unlisted : edge.source ∉ ids ∨ edge.target ∉ ids)
  /-- Another one that is followed leads the same way. -/
  | repeated (earlier : LayoutEdge) (mem : earlier ∈ before)
      (followed : earlier.kind.isCallLike = true) (source : earlier.source = edge.source)
      (target : earlier.target = edge.target)

/-- An ignorable edge makes no link that is new. -/
theorem Ignorable.mem_of_link? (ignorable : edge.Ignorable ids before)
    {link : Fin ids.length × Fin ids.length} (made : edge.link? ids = some link) :
    link ∈ before.filterMap (link? ids) := by
  rcases link?_eq_some_iff.mp made with ⟨followed, sourceFound, targetFound, different⟩
  cases ignorable with
  | unfollowed kind => exact absurd followed (by simp [kind])
  | loop same =>
    rw [same] at sourceFound
    exact absurd (Option.some.inj (sourceFound.symm.trans targetFound)) different
  | loose unlisted =>
    rcases unlisted with noSource | noTarget
    · rw [lastIndex?_eq_none_iff.mpr noSource] at sourceFound
      cases sourceFound
    · rw [lastIndex?_eq_none_iff.mpr noTarget] at targetFound
      cases targetFound
  | repeated earlier mem earlierFollowed source target =>
    apply List.mem_filterMap.mpr
    refine ⟨earlier, mem, link?_eq_some_iff.mpr ⟨earlierFollowed, ?_, ?_, different⟩⟩
    · rw [source, sourceFound]
    · rw [target, targetFound]

/-- An edge that makes no new link is ignorable, whichever way it fails to. -/
theorem ignorable_of_forall_mem
    (known : ∀ link, edge.link? ids = some link → link ∈ before.filterMap (link? ids)) :
    edge.Ignorable ids before := by
  by_cases followed : edge.kind.isCallLike = true
  · by_cases same : edge.source = edge.target
    · exact .loop same
    · cases sourceFound : lastIndex? ids edge.source with
      | none => exact .loose (Or.inl (lastIndex?_eq_none_iff.mp sourceFound))
      | some source =>
        cases targetFound : lastIndex? ids edge.target with
        | none => exact .loose (Or.inr (lastIndex?_eq_none_iff.mp targetFound))
        | some target =>
          have sourceId := get_of_lastIndex? sourceFound
          have targetId := get_of_lastIndex? targetFound
          have different : source ≠ target := by
            rintro rfl
            exact same (sourceId.symm.trans targetId)
          have made : edge.link? ids = some (source, target) :=
            link?_eq_some_iff.mpr ⟨followed, sourceFound, targetFound, different⟩
          rcases List.mem_filterMap.mp (known _ made) with ⟨earlier, mem, earlierMade⟩
          rcases link?_eq_some_iff.mp earlierMade with ⟨earlierFollowed, first, second, _⟩
          exact .repeated earlier mem earlierFollowed
            ((get_of_lastIndex? first).symm.trans sourceId)
            ((get_of_lastIndex? second).symm.trans targetId)
  · exact .unfollowed (Bool.eq_false_iff.mpr followed)

theorem ignorable_iff : edge.Ignorable ids before ↔
    ∀ link, edge.link? ids = some link → link ∈ before.filterMap (link? ids) :=
  ⟨fun ignorable _ made => ignorable.mem_of_link? made, ignorable_of_forall_mem⟩

theorem ignorable_iff_all : edge.Ignorable ids before ↔
    (edge.link? ids).all (before.filterMap (link? ids)).contains = true := by
  rw [ignorable_iff]
  cases edge.link? ids <;> simp

instance : Decidable (edge.Ignorable ids before) :=
  decidable_of_iff _ ignorable_iff_all.symm

end LayoutEdge

/-! ## Links -/

/-- What occurs before may be left out. -/
theorem eraseDups_insert_of_mem {α : Type} [BEq α] [LawfulBEq α] {before : List α} {item : α}
    (known : item ∈ before) (after : List α) :
    (before ++ item :: after).eraseDups = (before ++ after).eraseDups := by
  rw [List.eraseDups_append, List.eraseDups_append, List.cons_removeAll, if_neg (by simpa)]

/-- An ignorable edge changes no link, wherever it stands. -/
theorem linkGraph_insert {ids : List NodeId} {before : List LayoutEdge} {edge : LayoutEdge}
    (ignorable : edge.Ignorable ids before) (after : List LayoutEdge) :
    linkGraph ids (before ++ edge :: after) = linkGraph ids (before ++ after) := by
  rw [linkGraph, linkGraph, List.filterMap_append, List.filterMap_append]
  cases made : edge.link? ids with
  | none => rw [List.filterMap_cons_none made]
  | some link =>
    rw [List.filterMap_cons_some made, eraseDups_insert_of_mem (ignorable.mem_of_link? made)]

/-- No other edge can be left out: it adds a link to those of the edges before
it. -/
theorem linkGraph_concat_eq_iff {ids : List NodeId} {before : List LayoutEdge} {edge : LayoutEdge} :
    linkGraph ids (before ++ [edge]) = linkGraph ids before ↔ edge.Ignorable ids before := by
  constructor
  · intro unchanged
    apply LayoutEdge.ignorable_of_forall_mem
    intro link made
    have mem : link ∈ (linkGraph ids (before ++ [edge])).links := by
      simp [linkGraph, List.filterMap_append, made]
    rw [unchanged] at mem
    simpa [linkGraph] using mem
  · intro ignorable
    simpa using linkGraph_insert ignorable []

/-! ## The layout -/

/-- For all nodes and edges, an ignorable edge at any place changes neither the
cells of the grid nor the positions.  Any other edge adds a link to those before
it. -/
theorem TreeLayouter.insert_ignorable {R : Type} [Scalar R] (nodes : List (LayoutNode R))
    (before : List LayoutEdge) (edge : LayoutEdge) :
    (edge.Ignorable (nodes.map LayoutNode.id) before → ∀ after,
      grid nodes (before ++ edge :: after) = grid nodes (before ++ after) ∧
        ∀ layouter : TreeLayouter R,
          layouter.execute nodes (before ++ edge :: after) =
            layouter.execute nodes (before ++ after)) ∧
    (edge.Ignorable (nodes.map LayoutNode.id) before ↔
      linkGraph (nodes.map LayoutNode.id) (before ++ [edge]) =
        linkGraph (nodes.map LayoutNode.id) before) := by
  constructor
  · intro ignorable after
    have sameGrid : grid nodes (before ++ edge :: after) = grid nodes (before ++ after) := by
      rw [grid, grid, linkGraph_insert ignorable after]
    constructor
    · exact sameGrid
    · intro layouter
      rw [execute, execute, sameGrid]
  · exact linkGraph_concat_eq_iff.symm

/-- A repeat of another kind between two calls may be left out, and so may a way
back that is no call; a call back may not. -/
theorem TreeLayouter.insert_ignorable_sample :
    let nodes : List (LayoutNode Float32) :=
      [⟨"start", 100.0, 40.0⟩, ⟨"left", 60.0, 80.0⟩, ⟨"right", 60.0, 40.0⟩]
    let before : List LayoutEdge := [⟨"start", "left", .calls⟩]
    let after : List LayoutEdge := [⟨"start", "right", .calls⟩, ⟨"left", "right", .sendsTo⟩]
    let ids := nodes.map LayoutNode.id
    (∀ edge ∈ [⟨"start", "left", .sendsTo⟩, ⟨"left", "start", .imports⟩],
      edge.Ignorable ids before ∧
        grid nodes (before ++ edge :: after) = grid nodes (before ++ after) ∧
        (standard : TreeLayouter Float32).execute nodes (before ++ edge :: after) =
          (standard : TreeLayouter Float32).execute nodes (before ++ after)) ∧
    linkGraph ids (before ++ [⟨"left", "start", .calls⟩]) ≠ linkGraph ids before := by
  intro nodes before after ids
  constructor
  · intro edge mem
    have ignorable : edge.Ignorable ids before := by
      revert edge
      decide
    have unchanged := (insert_ignorable nodes before edge).1 ignorable after
    exact ⟨ignorable, unchanged.1, unchanged.2 standard⟩
  · intro same
    have ignorable := (insert_ignorable nodes before ⟨"left", "start", .calls⟩).2.mpr same
    revert ignorable
    decide

end CodeAtlas
