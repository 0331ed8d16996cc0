import CodeAtlas.Engine.Basic
import CodeAtlas.Json.Document

/-!
# Printed results

Where everything is placed, and the calls of a sequence diagram, as documents.
-/

namespace CodeAtlas

open CodeAtlas.Json (Document)

def Vec.document (point : Vec Float32) : Document :=
  .record [("x", .single point.x), ("y", .single point.y)]

def Rect.document (area : Rect Float32) : Document :=
  .record [("min", area.min.document), ("max", area.max.document)]

/-- A line as the list of its points. -/
def Polyline.document (points : List (Vec Float32)) : Document :=
  .list (points.map Vec.document)

def IngestReport.document (report : IngestReport) : Document :=
  .record [
    ("classes_added", .integer report.classesAdded),
    ("methods_added", .integer report.methodsAdded),
    ("standalone_added", .integer report.standaloneAdded),
    ("edges_added", .integer report.edgesAdded),
    ("edges_dropped", .integer report.edgesDropped)]

/-- A box with its place. -/
def boxDocument (id : NodeId) (kind : String) (area : Rect Float32) : Document :=
  .record [
    ("id", .string id),
    ("kind", .string kind),
    ("x", .single area.min.x),
    ("y", .single area.min.y),
    ("width", .single area.width),
    ("height", .single area.height)]

/-- An edge with its route. -/
def Edge.document (registry : Registry Float32) (edge : Edge) : Document :=
  .record [
    ("id", .string edge.id),
    ("kind", .string edge.kind.name),
    ("source", .string edge.source),
    ("target", .string edge.target),
    ("path", Polyline.document ((registry.edgePath edge).getD []))]

/-- Where everything on the map is placed. -/
def Engine.layoutDocument (engine : Engine Float32) (report : IngestReport) : Document :=
  let registry := engine.registry
  .record [
    ("perspective", .string registry.perspective.name),
    ("report", report.document),
    ("nodes", .list (
      (registry.classes.items.map fun node : ClassNode Float32 =>
        boxDocument node.id node.kindLabel node.rect) ++
      (registry.standalone.items.map fun node : StandaloneNode Float32 =>
        boxDocument node.id node.kind.title node.rect))),
    ("edges", .list (registry.edges.items.map (Edge.document registry)))]

def Lane.document (lane : Lane Float32) : Document :=
  .record [
    ("class_id", .string lane.classId),
    ("name", .string lane.name),
    ("header", lane.header.document),
    ("lifeline", Polyline.document [lane.lifeline.1, lane.lifeline.2])]

def Call.document (call : Call) : Document :=
  .record [
    ("caller_id", .string call.callerId),
    ("caller_name", .string call.callerName),
    ("caller_class_id", .string call.callerClassId),
    ("caller_class_name", .string call.callerClassName),
    ("target_id", .string call.targetId),
    ("target_name", .string call.targetName),
    ("target_class_id", .string call.targetClassId),
    ("target_class_name", .string call.targetClassName),
    ("depth", .integer call.depth)]

def CallArrow.document (arrow : CallArrow Float32) : Document :=
  .record [
    ("index", .integer arrow.index),
    ("from_lane", .integer arrow.fromLane),
    ("to_lane", .integer arrow.toLane),
    ("path", Polyline.document arrow.path),
    ("head", Polyline.document arrow.head),
    ("label_rect", arrow.labelRect.document)]

def SequenceView.document (view : SequenceView Float32) : Document :=
  .record [
    ("root_id", .string view.rootId),
    ("lanes", .list (view.lanes.map Lane.document)),
    ("calls", .list (view.calls.map Call.document)),
    ("arrows", .list (view.arrows.map CallArrow.document)),
    ("overlay_half_width", .single view.hitHalfWidth)]

end CodeAtlas
