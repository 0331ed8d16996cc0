import CodeAtlas.Config.Basic
import CodeAtlas.Geometry.Rect
import CodeAtlas.Pool
import CodeAtlas.Registry.Store
import CodeAtlas.Style
import CodeAtlas.Text.Uppercase

/-!
# What is on the map

Classes with their methods, standalone boxes, and the edges between them.  Each
names the resources it owns by slots.
-/

namespace CodeAtlas

/-- A method of a class, shown as a row of its box. -/
structure Method where
  id : NodeId
  classId : NodeId
  name : String
  returnType : String
  parameters : String
  access : Access
  isConstructor : Bool
  /-- Lines from the start of the class's source. -/
  startLine : Option Nat
  endLine : Option Nat
  labels : List String
  visible : Bool
  label : Option ResourceId
  /-- The text that the label shows. -/
  labelText : String
deriving Inhabited

instance : Keyed Method :=
  ⟨Method.id⟩

namespace Method

/-- The method that a node describes, before it is shown. -/
def ofNode (node : Node) (classId : NodeId) : Method :=
  let name := (node.text? "name").getD node.id
  { id := node.id
    classId
    name
    returnType := (node.text? "return_type").getD ""
    parameters := (node.text? "parameters").getD ""
    access := .ofProperty (node.text? "visibility")
    isConstructor := name == "<init>"
    startLine := node.number? "start_line"
    endLine := node.number? "end_line"
    labels := node.labels
    visible := true
    label := none
    labelText := "" }

/-- Constructors go by the name of their class. -/
def displayName (method : Method) (className : String) : String :=
  if method.isConstructor then className else method.name

/-- The text of the row: visibility, name, arguments if asked for, and the
return type of what is no constructor. -/
def rowText (method : Method) (className : String) (showArguments : Bool) : String :=
  let head := method.access.marker ++ " " ++ method.displayName className ++ "(" ++
    (if showArguments then method.parameters else "") ++ ")"
  if method.isConstructor || method.returnType.isEmpty then head
  else head ++ ": " ++ method.returnType

/-- Whether the row is shown: a focused method hides all its siblings, else the
toggles decide. -/
def isShown (method : Method) (toggles : Toggles) (focused : Option NodeId) : Bool :=
  match focused with
  | some id => id == method.id
  | none =>
    if method.isConstructor then toggles.showConstructors
    else if method.access.isPublic then toggles.showPublic
    else toggles.showPrivate

end Method

variable {R : Type} [Scalar R]

/-- The box of a size whose upper edge has its middle at a position. -/
def boxAt (position size : Vec R) : Rect R :=
  .ofPosSize ⟨position.x - size.x * 0.5, position.y⟩ size

/-- A class, shown as a box with a header and rows. -/
structure ClassNode (R : Type) where
  id : NodeId
  name : String
  fullName : Option String
  /-- What the class is called in the source: class, interface, enum, record. -/
  kindLabel : String
  sourceCode : Option String
  labels : List String
  /-- Its methods in the order of their rows. -/
  methods : List NodeId
  toggles : Toggles
  focusedMethod : Option NodeId
  size : Vec R
  /-- The middle of the upper edge. -/
  position : Vec R
  headerLabel : Option ResourceId
  /-- The outline, with the upper left corner at the origin. -/
  outline : Option ResourceId

instance : Keyed (ClassNode R) :=
  ⟨ClassNode.id⟩

namespace ClassNode

/-- The class that a node describes, before it is shown. -/
def ofNode (node : Node) (toggles : Toggles) : ClassNode R :=
  { id := node.id
    name := node.displayName
    fullName := node.text? "full_name"
    kindLabel := (node.text? "kind").getD "class"
    sourceCode := node.text? "source_code"
    labels := node.labels
    methods := []
    toggles
    focusedMethod := none
    size := .zero
    position := .zero
    headerLabel := none
    outline := none }

def rect (node : ClassNode R) : Rect R :=
  boxAt node.position node.size

/-- The text of the header; what is no plain class says what it is. -/
def headerText (node : ClassNode R) : String :=
  if Text.lowerAscii node.kindLabel == "class" then node.name
  else "<<" ++ node.kindLabel ++ ">> " ++ node.name

end ClassNode

/-- A node with a box of its own. -/
structure StandaloneNode (R : Type) where
  id : NodeId
  name : String
  kind : NodeKind
  labels : List String
  size : Vec R
  position : Vec R
  label : Option ResourceId
  outline : Option ResourceId

instance : Keyed (StandaloneNode R) :=
  ⟨StandaloneNode.id⟩

namespace StandaloneNode

def rect (node : StandaloneNode R) : Rect R :=
  boxAt node.position node.size

/-- The name of a node on its box: endpoints show how they are reached. -/
def nameOf (node : Node) : String :=
  match node.kind.isEndpoint, node.text? "http_method", node.text? "path" with
  | true, some method, some path => Text.upper method ++ " " ++ path
  | true, none, some path => path
  | _, _, _ => node.displayName

/-- The text on the box. -/
def labelText (kind : NodeKind) (name : String) : String :=
  "[" ++ kind.style.icon ++ "] " ++ name

end StandaloneNode

/-- An edge between two nodes on the map. -/
structure Edge where
  id : EdgeId
  kind : EdgeKind
  source : NodeId
  target : NodeId
  /-- The line from the source to the target, once it is routed. -/
  geometry : Option ResourceId
deriving Inhabited

instance : Keyed Edge :=
  ⟨Edge.id⟩

end CodeAtlas
