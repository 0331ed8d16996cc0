import CodeAtlas.Raster.Range
import CodeAtlas.Scene

/-!
# Painting frames

Frames become pictures item by item.
-/

namespace CodeAtlas

variable {R : Type} [Scalar R]

namespace Frame

/-- A closed line through points: each with the next, the last with the
first. -/
def closedSegments {α : Type} (points : List α) : List (α × α) :=
  points.zip (points.tail ++ points.head?.toList)

/-- Paints one item of a frame. -/
@[specialize]
def paintItem (frame : Frame R) (pool : Pool R) (canvas : Canvas) (item : DrawItem R) : Canvas :=
  match item.kind with
  | .rect area =>
    let screen := frame.rectToScreen area
    let canvas := match item.paint.fill with
      | some fill => canvas.fillRect screen fill
      | none => canvas
    match item.paint.stroke with
    | some stroke =>
      canvas.strokeRect screen stroke.color (Canvas.thickness stroke.width frame.scale)
    | none => canvas
  | .polygon points =>
    let screen := points.map frame.toScreen
    let canvas := match item.paint.fill with
      | some fill => canvas.fillPolygon screen fill
      | none => canvas
    match item.paint.stroke with
    | some stroke =>
      let thickness := Canvas.thickness stroke.width frame.scale
      (closedSegments screen).foldl (fun canvas (a, b) =>
        canvas.strokeLine a b stroke.color thickness) canvas
    | none => canvas
  | .polyline points dashed =>
    match item.paint.stroke with
    | some stroke =>
      let thickness := Canvas.thickness stroke.width frame.scale
      (Polyline.segments points).foldl (fun canvas (a, b) =>
        let a := frame.toScreen a
        let b := frame.toScreen b
        if dashed then canvas.strokeDashed a b stroke.color thickness
        else canvas.strokeLine a b stroke.color thickness) canvas
    | none => canvas
  | .label resource area =>
    match pool.label? resource with
    | some label => canvas.blit label.picture (frame.rectToScreen area)
    | none => canvas

/-- The size of the painted frame in pixels. -/
def pixelSize (frame : Frame R) : Nat × Nat :=
  (Scalar.toPixels (Scalar.max (Scalar.round frame.viewport.x) 1.0),
    Scalar.toPixels (Scalar.max (Scalar.round frame.viewport.y) 1.0))

/-- Whether a position that has to be looked at to paint an item is out of
range. -/
@[specialize]
def overflows (frame : Frame R) (pool : Pool R) (item : DrawItem R) : Bool :=
  match item.kind, item.paint.stroke with
  | .rect area, some stroke =>
    Canvas.strokeRectOverflows (frame.rectToScreen area)
      (Canvas.thickness stroke.width frame.scale)
  | .polygon points, some stroke =>
    let thickness := Canvas.thickness stroke.width frame.scale
    (closedSegments (points.map frame.toScreen)).any fun (a, b) =>
      Canvas.strokeLineOverflows a b thickness
  | .polyline points dashed, some stroke =>
    let thickness := Canvas.thickness stroke.width frame.scale
    (Polyline.segments points).any fun (a, b) =>
      let a := frame.toScreen a
      let b := frame.toScreen b
      if dashed then Canvas.strokeDashedOverflows a b thickness
      else Canvas.strokeLineOverflows a b thickness
  | .label resource area, _ =>
    match pool.label? resource with
    | some label => Canvas.blitOverflows label.picture (frame.rectToScreen area)
    | none => false
  | _, none => false

/-- Paints a frame, unless it is too large to be held or an item has positions
out of range. -/
@[specialize]
def render (frame : Frame R) (pool : Pool R) : Except Fault Canvas :=
  let (width, height) := frame.pixelSize
  if !Picture.fits width height then .error .oversized
  else if frame.items.any (frame.overflows pool) then .error .outOfRange
  else .ok (frame.items.foldl (frame.paintItem pool) (.blank width height frame.background))

end Frame

end CodeAtlas
