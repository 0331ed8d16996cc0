import CodeAtlas.Proofs.Registry.Store
import CodeAtlas.Registry.Placement
import CodeAtlas.Registry.Rows

/-!
# What display work leaves alone

Refreshing rows, moving boxes and routing edges only bring up to date how things
are shown.  The bare registry is the registry without what is shown, and the
laws below say that display work keeps it.
-/

namespace CodeAtlas

variable {R : Type} [Scalar R]

/-- A method without its row. -/
def Method.bare (method : Method) : Method :=
  { method with visible := true, label := none, labelText := "" }

/-- A class without its box. -/
def ClassNode.bare (node : ClassNode R) : ClassNode R :=
  { node with size := .zero, position := .zero, headerLabel := none, outline := none }

/-- A standalone node without its place. -/
def StandaloneNode.bare (node : StandaloneNode R) : StandaloneNode R :=
  { node with position := .zero }

/-- An edge without its line. -/
def Edge.bare (edge : Edge) : Edge :=
  { edge with geometry := none }

namespace Store

variable {α β : Type} [Keyed α] {store : Store α} {key : String} {item : α}

/-- A change that a view does not see keeps the view of the whole store. -/
theorem map_modify {change : α → α} {view : α → β}
    (unseen : ∀ item, Keyed.key item = key → view (change item) = view item) :
    (store.modify key change).items.map view = store.items.map view := by
  simp only [modify, List.map_map]
  apply List.map_congr_left
  intro item _
  by_cases same : Keyed.key item = key
  · simp [same, unseen item same]
  · simp [same]

/-- The same for a change that is known only at the thing that it touches. -/
theorem map_modify_of_get? {change : α → α} {view : α → β} (distinct : store.keys.Nodup)
    (found : store.get? key = some item) (unseen : view (change item) = view item) :
    (store.modify key change).items.map view = store.items.map view := by
  obtain ⟨before, after, split, others⟩ := exists_split distinct found
  rw [items_modify_of_split split (key_of_get? found) others, split]
  simp [unseen]

/-- Views that show the key decide the keys. -/
theorem keys_of_map_eq [Keyed β] {other : Store α} (view : α → β)
    (shown : ∀ item, Keyed.key (view item) = Keyed.key item)
    (same : store.items.map view = other.items.map view) : store.keys = other.keys := by
  have keysEq : ∀ store : Store α, store.keys = (store.items.map view).map Keyed.key := by
    intro store
    rw [keys, List.map_map]
    exact List.map_congr_left fun item _ => (shown item).symm
  rw [keysEq store, keysEq other, same]

end Store

namespace Registry

/-- The registry without what is shown. -/
def bare (reg : Registry R) : Registry R :=
  { reg with
    classes := ⟨reg.classes.items.map ClassNode.bare⟩
    methods := ⟨reg.methods.items.map Method.bare⟩
    standalone := ⟨reg.standalone.items.map StandaloneNode.bare⟩
    edges := ⟨reg.edges.items.map Edge.bare⟩
    pool := {} }

/-- Registries whose parts look alike when bare are alike when bare. -/
theorem bare_congr {reg other : Registry R} (perspective : other.perspective = reg.perspective)
    (classes : other.classes.items.map ClassNode.bare = reg.classes.items.map ClassNode.bare)
    (methods : other.methods.items.map Method.bare = reg.methods.items.map Method.bare)
    (standalone : other.standalone.items.map StandaloneNode.bare =
      reg.standalone.items.map StandaloneNode.bare)
    (edges : other.edges.items.map Edge.bare = reg.edges.items.map Edge.bare)
    (text : other.text = reg.text) (metrics : other.metrics = reg.metrics)
    (toggles : other.defaultToggles = reg.defaultToggles) : other.bare = reg.bare := by
  simp only [bare, perspective, classes, methods, standalone, edges, text, metrics, toggles]

/-! ## Keys -/

theorem keys_bare_classes (reg : Registry R) :
    reg.bare.classes.keys = reg.classes.keys := by
  simp only [Store.keys, bare, List.map_map]
  rfl

theorem keys_bare_methods (reg : Registry R) :
    reg.bare.methods.keys = reg.methods.keys := by
  simp only [Store.keys, bare, List.map_map]
  rfl

theorem keys_bare_standalone (reg : Registry R) :
    reg.bare.standalone.keys = reg.standalone.keys := by
  simp only [Store.keys, bare, List.map_map]
  rfl

theorem keys_bare_edges (reg : Registry R) :
    reg.bare.edges.keys = reg.edges.keys := by
  simp only [Store.keys, bare, List.map_map]
  rfl

/-! ## Rows -/

theorem bare_labelRow (reg : Registry R) (node : ClassNode R) (pool : Pool R)
    (method : Method) : (reg.labelRow node pool method).1.bare = method.bare := by
  unfold labelRow
  dsimp only
  split <;> rfl

theorem map_bare_refreshRow (reg : Registry R) (node : ClassNode R) (id : NodeId)
    {state : RowState R} (distinct : state.methods.keys.Nodup) :
    (reg.refreshRow node state id).methods.items.map Method.bare =
      state.methods.items.map Method.bare := by
  unfold refreshRow
  cases found : state.methods.get? id with
  | none => rfl
  | some method =>
    dsimp only
    split
    · apply Store.map_modify_of_get? distinct found
      rw [bare_labelRow]
      rfl
    · exact Store.map_modify_of_get? distinct found rfl

theorem map_bare_refreshRows (reg : Registry R) (node : ClassNode R) (ids : List NodeId)
    {state : RowState R} (distinct : state.methods.keys.Nodup) :
    (ids.foldl (reg.refreshRow node) state).methods.items.map Method.bare =
      state.methods.items.map Method.bare := by
  induction ids generalizing state with
  | nil => rfl
  | cons id rest ih =>
    have first := map_bare_refreshRow reg node id distinct
    have firstKeys : (reg.refreshRow node state id).methods.keys = state.methods.keys :=
      Store.keys_of_map_eq Method.bare (fun _ => rfl) first
    rw [List.foldl_cons, ih (firstKeys ▸ distinct), first]

/-- Refreshing a class changes nothing but what is shown. -/
theorem bare_refreshClass {reg : Registry R} (classId : NodeId)
    (distinct : reg.methods.keys.Nodup) :
    (reg.refreshClass classId).bare = reg.bare := by
  unfold refreshClass
  cases reg.classes.get? classId with
  | none => rfl
  | some node =>
    apply bare_congr <;> try rfl
    · exact Store.map_modify fun _ _ => rfl
    · exact map_bare_refreshRows reg node node.methods distinct

theorem bare_refreshClasses (ids : List NodeId) {reg : Registry R}
    (distinct : reg.methods.keys.Nodup) :
    (ids.foldl refreshClass reg).bare = reg.bare := by
  induction ids generalizing reg with
  | nil => rfl
  | cons id rest ih =>
    have first := bare_refreshClass id distinct
    have firstKeys : (reg.refreshClass id).methods.keys = reg.methods.keys := by
      rw [← keys_bare_methods, first, keys_bare_methods]
    rw [List.foldl_cons, ih (firstKeys ▸ distinct), first]

/-! ## Places and lines -/

theorem bare_moveTo (reg : Registry R) (id : NodeId) (position : Vec R) :
    (reg.moveTo id position).bare = reg.bare := by
  unfold moveTo
  split
  · apply bare_congr <;> try rfl
    exact Store.map_modify fun _ _ => rfl
  · apply bare_congr <;> try rfl
    exact Store.map_modify fun _ _ => rfl

/-- Moving boxes changes nothing but what is shown. -/
theorem bare_applyPositions (reg : Registry R) (positions : Positions R) :
    (reg.applyPositions positions).bare = reg.bare := by
  unfold applyPositions
  induction positions generalizing reg with
  | nil => rfl
  | cons first rest ih =>
    rw [List.foldl_cons, ih, bare_moveTo]

theorem map_bare_routeAll (reg : Registry R) (edges : List Edge) (pool : Pool R) :
    (reg.routeAll edges pool).1.map Edge.bare = edges.map Edge.bare := by
  induction edges generalizing pool with
  | nil => rfl
  | cons edge rest ih =>
    unfold routeAll
    cases reg.route edge with
    | none => simp [ih]
    | some points => simp [ih, Edge.bare]

/-- Routing edges changes nothing but what is shown. -/
theorem bare_updateEdgeGeometry (reg : Registry R) :
    reg.updateEdgeGeometry.bare = reg.bare := by
  apply bare_congr <;> try rfl
  exact map_bare_routeAll reg reg.edges.items reg.pool

end Registry

end CodeAtlas
