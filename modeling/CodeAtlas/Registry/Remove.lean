import CodeAtlas.Registry.Rows

/-!
# Taking things off the map

Whatever goes takes along its edges and lets go of its resources.
-/

namespace CodeAtlas

variable {R : Type} [Scalar R]

namespace Registry

/-- Removes the edges that meet a condition. -/
def removeEdges (registry : Registry R) (doomed : Edge → Bool) : Registry R :=
  let gone := registry.edges.items.filter doomed
  { registry with
    edges := ⟨registry.edges.items.filter fun edge => !doomed edge⟩
    pool := gone.foldl (fun pool edge => pool.releaseSlot edge.geometry) registry.pool }

/-- Removes the edges at any of the given nodes. -/
def removeEdgesAt (registry : Registry R) (ids : List NodeId) : Registry R :=
  registry.removeEdges fun edge => ids.contains edge.source || ids.contains edge.target

/-- Removes a class with its methods. -/
def deleteClass (registry : Registry R) (node : ClassNode R) : Registry R :=
  let methods := node.methods.filterMap registry.methods.get?
  let pool := (registry.pool.releaseSlot node.headerLabel).releaseSlot node.outline
  let registry := { registry with
    classes := registry.classes.erase node.id
    methods := node.methods.foldl Store.erase registry.methods
    pool := methods.foldl (fun pool (method : Method) => pool.releaseSlot method.label) pool }
  registry.removeEdgesAt (node.id :: methods.map Method.id)

/-- Removes a method from its class. -/
def deleteMethod (registry : Registry R) (method : Method) : Registry R :=
  let registry := { registry with
    methods := registry.methods.erase method.id
    pool := registry.pool.releaseSlot method.label
    classes := registry.classes.modify method.classId fun owner =>
      { owner with
        methods := owner.methods.filter (· ≠ method.id)
        focusedMethod := owner.focusedMethod.filter (· ≠ method.id) } }
  (registry.removeEdgesAt [method.id]).refreshClass method.classId

/-- Removes a standalone node. -/
def deleteStandalone (registry : Registry R) (node : StandaloneNode R) : Registry R :=
  let registry := { registry with
    standalone := registry.standalone.erase node.id
    pool := (registry.pool.releaseSlot node.label).releaseSlot node.outline }
  registry.removeEdgesAt [node.id]

/-- Removes what an id names, and tells whether it names anything. -/
def deleteNode (registry : Registry R) (id : NodeId) : Bool × Registry R :=
  match registry.classes.get? id with
  | some node => (true, registry.deleteClass node)
  | none =>
    match registry.methods.get? id with
    | some method => (true, registry.deleteMethod method)
    | none =>
      match registry.standalone.get? id with
      | some node => (true, registry.deleteStandalone node)
      | none => (false, registry)

/-- Removes everything but one class and its methods; tells whether there is
such a class. -/
def focusOnClass (registry : Registry R) (classId : NodeId) : Bool × Registry R :=
  if registry.classes.contains classId then
    let bare := registry.removeEdges fun _ => true
    let others := bare.classes.keys.filter (· ≠ classId) ++ bare.standalone.keys
    (true, others.foldl (fun registry id => (registry.deleteNode id).2) bare)
  else (false, registry)

end Registry

end CodeAtlas
