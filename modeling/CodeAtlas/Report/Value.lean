import CodeAtlas.Event
import CodeAtlas.Json.Document
import CodeAtlas.Scene

/-!
# Reports of single values

Values of the diagram as documents, for those who follow it from outside.
Scalars are written as texts of the fewest digits that read back, so that no
reader can round them, and colours by their channels in hexadecimal.
-/

namespace CodeAtlas.Report

open CodeAtlas.Json (Document)

def text (value : String) : Document :=
  .string value

def nat (value : Nat) : Document :=
  .integer value

def bool (value : Bool) : Document :=
  .boolean value

def list {α : Type} (report : α → Document) (items : List α) : Document :=
  .list (items.map report)

/-- A value that may be missing. -/
def opt {α : Type} (report : α → Document) : Option α → Document
  | some value => report value
  | none => .null

def scalar (value : Float32) : Document :=
  .string (Decimal.Style.plain.single value)

def vec (point : Vec Float32) : Document :=
  .list [scalar point.x, scalar point.y]

def rect (area : Rect Float32) : Document :=
  .list [scalar area.min.x, scalar area.min.y, scalar area.max.x, scalar area.max.y]

def points (line : List (Vec Float32)) : Document :=
  list vec line

/-- Two hexadecimal digits. -/
def hexByte (byte : UInt8) : String :=
  String.ofList [Json.hexChar (byte.toNat / 16), Json.hexChar (byte.toNat % 16)]

/-- The channels of a colour in hexadecimal. -/
def hexColor (color : Color) : String :=
  hexByte color.r ++ hexByte color.g ++ hexByte color.b ++ hexByte color.a

def color (value : Color) : Document :=
  .string ("#" ++ hexColor value)

def stroke (value : Stroke Float32) : Document :=
  .record [("color", color value.color), ("width", scalar value.width)]

def paint (value : Paint Float32) : Document :=
  .record [("fill", opt color value.fill), ("stroke", opt stroke value.stroke)]

/-- A value of one of several forms, with the name of its form. -/
def tagged (form : String) (fields : List (String × Document)) : Document :=
  .record (("t", text form) :: fields)

def role : Role → Document
  | .classBackground id => tagged "ClassBackground" [("class_id", text id)]
  | .classHeader id => tagged "ClassHeader" [("class_id", text id)]
  | .methodRow classId id => tagged "MethodRow" [("class_id", text classId), ("method_id", text id)]
  | .standalone id => tagged "Standalone" [("node_id", text id)]
  | .edge id => tagged "Edge" [("edge_id", text id)]
  | .callArrow index => tagged "CallArrow" [("index", nat index)]
  | .laneHeader lane id => tagged "LaneHeader" [("lane", nat lane), ("class_id", text id)]
  | .lifeline lane => tagged "Lifeline" [("lane", nat lane)]

def shape : Shape Float32 → Document
  | .rect area => tagged "rect" [("rect", rect area)]
  | .polyline line halfWidth =>
    tagged "polyline" [("points", points line), ("half_width", scalar halfWidth)]
  | .polygon corners => tagged "polygon" [("points", points corners)]

def drawKind : DrawKind Float32 → Document
  | .rect area => tagged "rect" [("rect", rect area)]
  | .polygon corners => tagged "polygon" [("points", points corners)]
  | .polyline line dashed => tagged "polyline" [("points", points line), ("dashed", bool dashed)]
  | .label resource area => tagged "label" [("resource", nat resource), ("rect", rect area)]

def hit (value : Hit Float32) : Document :=
  .record [("role", role value.role), ("point", vec value.point),
    ("distance", scalar value.distance)]

def call (value : Call) : Document :=
  .record [
    ("caller", list text
      [value.callerId, value.callerName, value.callerClassId, value.callerClassName]),
    ("target", list text
      [value.targetId, value.targetName, value.targetClassId, value.targetClassName]),
    ("depth", nat value.depth),
    ("self_call", bool value.isSelfCall)]

def event : Event Float32 → Document
  | .nodeClicked id => tagged "NodeClicked" [("id", text id)]
  | .nodeRightClicked id labels x y =>
    tagged "NodeRightClicked"
      [("id", text id), ("labels", list text labels), ("x", scalar x), ("y", scalar y)]
  | .headerClicked id => tagged "HeaderClicked" [("class_id", text id)]
  | .callArrowClicked value => tagged "CallArrowClicked" [("call", call value)]
  | .perspectiveChanged perspective =>
    tagged "PerspectiveChanged" [("perspective", text perspective.name)]
  | .sceneCleared => tagged "SceneCleared" []
  | .sequenceEntered id count =>
    tagged "SequenceEntered" [("root_id", text id), ("call_count", nat count)]
  | .sequenceExited => tagged "SequenceExited" []

/-- Neighbouring equal items with their number. -/
def runs {α : Type} [BEq α] : List α → List (Nat × α)
  | [] => []
  | first :: rest =>
    let (done, last) := rest.foldl (fun (state : List (Nat × α) × (Nat × α)) item =>
      let (done, count, current) := state
      if current == item then (done, count + 1, current) else ((count, current) :: done, 1, item))
      ([], 1, first)
    (last :: done).reverse

/-- The pixels of a row as runs of colours. -/
def pixelRow (picture : Picture) (y : Nat) : String :=
  String.intercalate " " ((runs ((List.range picture.width).map fun x => picture.pixel x y)).map
    fun (count, color) => hexColor color ++ "*" ++ toString count)

def picture (value : Picture) : Document :=
  .record [("width", nat value.width), ("height", nat value.height),
    ("rows", list (fun (count, row) => .list [nat count, text row])
      (runs ((List.range value.height).map (pixelRow value))))]

end CodeAtlas.Report
