import CodeAtlas.Text.Blank

/-!
# Kinds of nodes and relationships

A node says what it is through labels, given one by one or joined by colons.
A relationship carries the name of its type.  Both are sorted into closed sets
of kinds with one member for everything else.
-/

namespace CodeAtlas

/-- A name that stands for nothing known. -/
inductive NameError where
  | nodeLabel (label : String)
  | relationshipType (type : String)
  | perspective (name : String)
deriving DecidableEq, Repr

namespace NameError

def message : NameError → String
  | nodeLabel label => "unknown node label: " ++ label
  | relationshipType type => "unknown relationship type: " ++ type
  | perspective name => "unknown perspective: " ++ name

end NameError

/-- What a node of the map stands for. -/
inductive NodeKind where
  | classType
  | method
  | package
  | moduleType
  | repository
  | microservice
  | restInterface
  | restEndpoint
  | feignClient
  | feignEndpoint
  | jmsDestination
  | jmsListener
  | jmsProducer
  | scheduledTask
  | httpClient
  | dataRepository
  | unknown
deriving DecidableEq, Repr, Inhabited

namespace NodeKind

/-- The name of a kind in reports. -/
def name : NodeKind → String
  | classType => "CLASS"
  | method => "METHOD"
  | package => "PACKAGE"
  | moduleType => "MODULE"
  | repository => "REPOSITORY"
  | microservice => "MICROSERVICE"
  | restInterface => "REST_INTERFACE"
  | restEndpoint => "REST_ENDPOINT"
  | feignClient => "FEIGN_CLIENT"
  | feignEndpoint => "FEIGN_ENDPOINT"
  | jmsDestination => "JMS_DESTINATION"
  | jmsListener => "JMS_LISTENER"
  | jmsProducer => "JMS_PRODUCER"
  | scheduledTask => "SCHEDULED_TASK"
  | httpClient => "HTTP_CLIENT"
  | dataRepository => "DATA_REPOSITORY"
  | unknown => "UNKNOWN"

/-- The kind a single label names. -/
def ofLabel? (label : String) : Option NodeKind :=
  match label with
  | "Class" => some classType
  | "Method" => some method
  | "Package" => some package
  | "Module" => some moduleType
  | "Repository" => some repository
  | "Microservice" => some microservice
  | "RESTInterface" => some restInterface
  | "RESTEndpoint" => some restEndpoint
  | "FeignClient" => some feignClient
  | "FeignEndpoint" => some feignEndpoint
  | "JMSDestination" => some jmsDestination
  | "JMSListener" => some jmsListener
  | "JMSProducer" => some jmsProducer
  | "ScheduledTask" => some scheduledTask
  | "HTTPClient" => some httpClient
  | _ => none

/-- The kind a single label names, or the error that it names none. -/
def parse (label : String) : Except NameError NodeKind :=
  match ofLabel? label with
  | some kind => .ok kind
  | none => .error (.nodeLabel label)

/-- The parts of a label between colons, without blanks around them. -/
def labelParts (label : String) : List String :=
  (Text.splitChars ':' label.toList).map fun part => String.ofList (Text.trimChars part)

/-- The kind named by the first part that names one.  A repository among
architecture labels is a data repository. -/
def ofLabels (labels : List String) : NodeKind :=
  let parts := labels.flatMap labelParts
  match parts.findSome? ofLabel? with
  | none => unknown
  | some repository => if parts.contains "Arch" then dataRepository else repository
  | some kind => kind

/-- Kinds of architecture elements. -/
def isArchitecture : NodeKind → Bool
  | microservice | restInterface | restEndpoint | feignClient | feignEndpoint | jmsDestination
  | jmsListener | jmsProducer | scheduledTask | httpClient | dataRepository => true
  | _ => false

/-- Kinds drawn as boxes of their own in the architecture perspective:
architecture elements and the structural containers they link to. -/
def isStandalone (kind : NodeKind) : Bool :=
  kind.isArchitecture ||
    match kind with
    | package | moduleType | repository | classType => true
    | _ => false

/-- Kinds of endpoints. -/
def isEndpoint : NodeKind → Bool
  | restEndpoint | feignEndpoint => true
  | _ => false

end NodeKind

/-- What a relationship stands for. -/
inductive EdgeKind where
  | hasMethod
  | calls
  | imports
  | hasEndpoint
  | listensOn
  | sendsTo
  | implementedBy
  | containsModule
  | containsPackage
  | containsClass
  | unknown
deriving DecidableEq, Repr, Inhabited

namespace EdgeKind

/-- The name of a kind, also in relationship types. -/
def name : EdgeKind → String
  | hasMethod => "HAS_METHOD"
  | calls => "CALLS"
  | imports => "IMPORTS"
  | hasEndpoint => "HAS_ENDPOINT"
  | listensOn => "LISTENS_ON"
  | sendsTo => "SENDS_TO"
  | implementedBy => "IMPLEMENTED_BY"
  | containsModule => "CONTAINS_MODULE"
  | containsPackage => "CONTAINS_PACKAGE"
  | containsClass => "CONTAINS_CLASS"
  | unknown => "UNKNOWN"

/-- The kind that a relationship type names. -/
def ofType? (type : String) : Option EdgeKind :=
  match type with
  | "HAS_METHOD" => some hasMethod
  | "CALLS" => some calls
  | "IMPORTS" => some imports
  | "HAS_ENDPOINT" => some hasEndpoint
  | "LISTENS_ON" => some listensOn
  | "SENDS_TO" => some sendsTo
  | "IMPLEMENTED_BY" => some implementedBy
  | "CONTAINS_MODULE" => some containsModule
  | "CONTAINS_PACKAGE" => some containsPackage
  | "CONTAINS_CLASS" => some containsClass
  | _ => none

/-- The kind that a relationship type names, or the error that it names
none. -/
def parse (type : String) : Except NameError EdgeKind :=
  match ofType? type with
  | some kind => .ok kind
  | none => .error (.relationshipType type)

/-- The kind of a relationship type, known or not. -/
def ofType (type : String) : EdgeKind :=
  (ofType? type).getD unknown

/-- Kinds that the tree layout follows: calls and architecture links. -/
def isCallLike : EdgeKind → Bool
  | calls | hasEndpoint | listensOn | sendsTo | implementedBy => true
  | _ => false

/-- Kinds that are drawn: all but ownership of methods. -/
def isRendered : EdgeKind → Bool
  | hasMethod => false
  | _ => true

/-- Kinds drawn with dashes: all but calls. -/
def isDashed : EdgeKind → Bool
  | calls => false
  | _ => true

end EdgeKind

/-- What the map shows. -/
inductive Perspective where
  /-- Classes with their method rows. -/
  | technical
  /-- Every node as a box of its own. -/
  | architecture
deriving DecidableEq, Repr, Inhabited

namespace Perspective

def name : Perspective → String
  | technical => "technical"
  | architecture => "architecture"

/-- The perspective of a name, whatever its case. -/
def ofName? (name : String) : Option Perspective :=
  match Text.lowerAscii name with
  | "technical" => some technical
  | "architecture" => some architecture
  | "architectural" => some architecture
  | _ => none

/-- The perspective of a name, or the error that it names none. -/
def parse (name : String) : Except NameError Perspective :=
  match ofName? name with
  | some perspective => .ok perspective
  | none => .error (.perspective (Text.lowerAscii name))

end Perspective

/-- Declared visibility of a method. -/
inductive Access where
  | publicMember
  | protectedMember
  | privateMember
  | packageMember
deriving DecidableEq, Repr, Inhabited

namespace Access

def name : Access → String
  | publicMember => "Public"
  | protectedMember => "Protected"
  | privateMember => "Private"
  | packageMember => "Package"

/-- The visibility given by a property.  Without the property a member is
public; a value that names no visibility means package access, which is what a
member without a modifier gets. -/
def ofProperty (property : Option String) : Access :=
  match property.map fun value => Text.lowerAscii (Text.trim value) with
  | none => publicMember
  | some "public" => publicMember
  | some "protected" => protectedMember
  | some "private" => privateMember
  | some _ => packageMember

/-- The sign before a method's name. -/
def marker : Access → String
  | publicMember => "+"
  | protectedMember => "#"
  | privateMember => "-"
  | packageMember => "~"

def isPublic : Access → Bool
  | publicMember => true
  | _ => false

end Access

end CodeAtlas
