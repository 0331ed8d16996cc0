import CodeAtlas.Registry.Entity

/-!
# The registry

Everything that is on the map, in the order it came in, with the pool of the
resources it owns.
-/

namespace CodeAtlas

structure Registry (R : Type) where
  perspective : Perspective
  classes : Store (ClassNode R)
  methods : Store Method
  standalone : Store (StandaloneNode R)
  edges : Store Edge
  pool : Pool R
  text : TextMetrics R
  metrics : NodeMetrics R
  /-- The toggles that every new class starts with. -/
  defaultToggles : Toggles

/-- Where in a class's source a method stands. -/
structure MethodSpan where
  methodId : NodeId
  name : String
  startLine : Option Nat
  endLine : Option Nat
  visible : Bool
deriving Inhabited

/-- The source of a class with the lines of its methods. -/
structure SourceView where
  classId : NodeId
  className : String
  source : Option String
  methods : List MethodSpan
deriving Inhabited

namespace Registry

variable {R : Type} [Scalar R]

/-- An empty map. -/
def create (metrics : NodeMetrics R) (toggles : Toggles) (text : TextMetrics R) : Registry R :=
  { perspective := .technical
    classes := {}
    methods := {}
    standalone := {}
    edges := {}
    pool := {}
    text
    metrics
    defaultToggles := toggles }

/-- Whether the id names something on the map. -/
def containsNode (registry : Registry R) (id : NodeId) : Bool :=
  registry.classes.contains id || registry.methods.contains id || registry.standalone.contains id

/-- The methods of a class in the order of their rows. -/
def methodsOf (registry : Registry R) (classId : NodeId) : List Method :=
  match registry.classes.get? classId with
  | some node => node.methods.filterMap registry.methods.get?
  | none => []

/-- The methods of a class that are shown. -/
def visibleMethods (registry : Registry R) (classId : NodeId) : List Method :=
  (registry.methodsOf classId).filter Method.visible

/-- The number of classes, methods and standalone nodes. -/
def nodeCount (registry : Registry R) : Nat :=
  registry.classes.size + registry.methods.size + registry.standalone.size

def edgeCount (registry : Registry R) : Nat :=
  registry.edges.size

def isEmpty (registry : Registry R) : Bool :=
  registry.nodeCount == 0 && registry.edgeCount == 0

def resourceCount (registry : Registry R) : Nat :=
  registry.pool.size

/-- The labels of what an id names. -/
def labelsOf (registry : Registry R) (id : NodeId) : Option (List String) :=
  match registry.classes.get? id with
  | some node => some node.labels
  | none =>
    match registry.methods.get? id with
    | some method => some method.labels
    | none => (registry.standalone.get? id).map StandaloneNode.labels

/-- The source of a class. -/
def classSource (registry : Registry R) (classId : NodeId) : Option SourceView :=
  (registry.classes.get? classId).map fun node =>
    { classId := node.id
      className := node.name
      source := node.sourceCode
      methods := (registry.methodsOf classId).map fun method =>
        ⟨method.id, method.displayName node.name, method.startLine, method.endLine,
          method.visible⟩ }

/-- Takes everything off the map. -/
def clear (registry : Registry R) : Registry R :=
  { registry with
    classes := {}
    methods := {}
    standalone := {}
    edges := {}
    pool := registry.pool.clear }

/-- Changes the perspective, which takes everything off the map.  Tells whether
there was a change. -/
def setPerspective (registry : Registry R) (perspective : Perspective) : Bool × Registry R :=
  if registry.perspective = perspective then (false, registry)
  else (true, { registry.clear with perspective })

end Registry

end CodeAtlas
