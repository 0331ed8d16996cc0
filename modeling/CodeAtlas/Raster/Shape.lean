import CodeAtlas.Geometry.Curve
import CodeAtlas.Raster.Line

/-!
# Shapes on a canvas

Shapes are filled where they hold the centre of a pixel, lines are drawn with a
square pen, and pictures are stretched by taking the nearest pixel.
-/

namespace CodeAtlas

variable {R : Type} [Scalar R]

namespace Canvas

/-- The whole number nearest to a scalar. -/
@[inline]
def nearest (x : R) : Int :=
  Scalar.trunc (Scalar.round x)

/-- The number of pixels of a line of some width, at least one. -/
def thickness (width scale : R) : Int :=
  Scalar.trunc (Scalar.max (Scalar.round (width * scale)) 1.0)

/-- Lays a colour over the positions of a row. -/
@[specialize]
def paintRow (R : Type) [Scalar R] (color : Color) (canvas : Canvas) (y : Int)
    (xs : List Int) : Canvas :=
  canvas.paint R color (xs.map fun x => (x, y))

/-- Fills a rectangle. -/
@[specialize]
def fillRect (canvas : Canvas) (rect : Rect R) (color : Color) : Canvas :=
  (canvas.rows (nearest rect.min.y) (nearest rect.max.y)).foldl (fun canvas y =>
    canvas.paintRow R color y (canvas.columns (nearest rect.min.x) (nearest rect.max.x))) canvas

/-- Draws one frame line inside a rectangle, at a distance from its edges: both
horizontal sides column by column, then both vertical sides row by row. -/
@[specialize]
def strokeRectAt (rect : Rect R) (color : Color) (canvas : Canvas) (offset : Int) : Canvas :=
  let left := nearest rect.min.x
  let top := nearest rect.min.y
  let right := nearest rect.max.x
  let bottom := nearest rect.max.y
  let canvas := canvas.paint R color ((canvas.columns left right).flatMap fun x =>
    [(x, top + offset), (x, bottom - 1 - offset)])
  canvas.paint R color ((canvas.rows top bottom).flatMap fun y =>
    [(left + offset, y), (right - 1 - offset, y)])

/-- Outlines a rectangle on its inside. -/
@[specialize]
def strokeRect (canvas : Canvas) (rect : Rect R) (color : Color) (thickness : Int) : Canvas :=
  (span 0 (max thickness 1)).foldl (strokeRectAt rect color) canvas

/-- The pixels of a row whose centres a polygon holds. -/
@[specialize]
def polygonRow (points : List (Vec R)) (columns : List Int) (y : Int) : List Int :=
  let crossings := Polygon.crossings points (Scalar.ofInt y + 0.5)
  columns.filter fun x => Polygon.oddBeyond crossings (Scalar.ofInt x + 0.5)

/-- Fills a polygon. -/
@[specialize]
def fillPolygon (canvas : Canvas) (points : List (Vec R)) (color : Color) : Canvas :=
  match Rect.bounding points with
  | none => canvas
  | some bounds =>
    let columns := canvas.columns (Scalar.trunc (Scalar.floor bounds.min.x))
      (Scalar.trunc (Scalar.ceil bounds.max.x))
    (canvas.rows (Scalar.trunc (Scalar.floor bounds.min.y))
        (Scalar.trunc (Scalar.ceil bounds.max.y))).foldl (fun canvas y =>
      canvas.paintRow R color y (polygonRow points columns y)) canvas

/-- The line between the pixels nearest to two points. -/
def pixelLine (start finish : Vec R) : PixelLine :=
  ⟨nearest start.x, nearest start.y, nearest finish.x, nearest finish.y⟩

/-- Draws a straight line. -/
@[specialize]
def strokeLine (canvas : Canvas) (start finish : Vec R) (color : Color) (thickness : Int) :
    Canvas :=
  canvas.drawLine R (pixelLine start finish) color thickness

/-- The dashes of a line of some length, from `travelled` on, as pairs of start
and end; at most `count` of them. -/
def dashes (length : R) : Nat → R → List (R × R)
  | 0, _ => []
  | count + 1, travelled =>
    if travelled < length then
      let finish := Scalar.min (travelled + 6.0) length
      (travelled, finish) :: dashes length count (finish + 4.0)
    else []

/-- Draws a dashed line.  A dash with its gap is longer than one pixel, which
bounds the number of dashes. -/
@[specialize]
def strokeDashed (canvas : Canvas) (start finish : Vec R) (color : Color) (thickness : Int) :
    Canvas :=
  let length := (finish - start).length
  if length ≤ Scalar.epsilon then canvas
  else
    let direction := (finish - start) * (1.0 / length)
    (dashes length ((Scalar.trunc length).toNat + 1) 0.0).foldl (fun canvas dash =>
      canvas.strokeLine (start + direction * dash.1) (start + direction * dash.2) color thickness)
      canvas

/-- The pixel of a side of length `size` that stands for pixel `index` of a
side stretched to `stretched` pixels. -/
@[inline]
def nearestPixel (R : Type) [Scalar R] (index : Int) (size : Nat) (stretched : Int) : Nat :=
  min (Scalar.toPixels
    ((Scalar.ofInt index + 0.5 : R) * Scalar.ofNat size / Scalar.ofInt stretched)) (size - 1)

/-- Lays a picture, stretched over a rectangle, onto the canvas. -/
@[specialize]
def blit (canvas : Canvas) (picture : Picture) (area : Rect R) : Canvas :=
  let width := nearest area.width
  let height := nearest area.height
  if width ≤ 0 || height ≤ 0 || picture.width == 0 || picture.height == 0 then canvas
  else
    let left := nearest area.min.x
    let top := nearest area.min.y
    let columns := (canvas.columns left (left + width)).map fun x =>
      (x, nearestPixel R (x - left) picture.width width)
    (canvas.rows top (top + height)).foldl (fun canvas y =>
      let row := nearestPixel R (y - top) picture.height height
      columns.foldl (fun canvas (x, column) =>
        let color := picture.pixel column row
        if color.a == 0 then canvas
        else canvas.blend R x y { color with a := 255 } color.a) canvas) canvas

end Canvas

end CodeAtlas
