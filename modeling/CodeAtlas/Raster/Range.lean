import CodeAtlas.Raster.Shape

/-!
# Positions out of range

Positions of pixels, and all that is computed from them, are whole numbers of
64 bits.  A shape overflows when a number that has to be looked at while it is
painted has no place among them.  Most shapes show this at their ends; only a
line whose extents come near the range has to be walked.
-/

namespace CodeAtlas

/-- Whether a whole number has at most 64 bits. -/
def Canvas.isInRange (n : Int) : Bool :=
  -Int.pow 2 63 ≤ n && n < Int.pow 2 63

namespace PixelLine

open Canvas (isInRange)

/-- Whether both extents are so far below the range that the error of the pen,
which stays within one and a half of the larger one, cannot leave it. -/
def isShort (line : PixelLine) : Bool :=
  line.across < Int.pow 2 61 && line.along < Int.pow 2 61

/-- Whether the next step of the pen makes a number out of range: twice the
error, or the error after either part of the step. -/
def stepOverflows (line : PixelLine) (pen : Pen) : Bool :=
  let doubled := 2 * pen.error
  let crossed := if -line.along ≤ doubled then pen.error - line.along else pen.error
  !isInRange doubled || !isInRange crossed || !isInRange (line.next pen).error

/-- Whether one of at most `steps` steps overflows before the pen arrives. -/
def walkOverflows (line : PixelLine) : Nat → Pen → Bool
  | 0, _ => false
  | steps + 1, pen =>
    !line.isDone pen && (line.stepOverflows pen || walkOverflows line steps (line.next pen))

/-- Whether a square pen reaches out of range around a position. -/
def penOverflows (reach x y : Int) : Bool :=
  [x - reach, x + reach, y - reach, y + reach].any fun n => !isInRange n

/-- Whether the line, drawn with a pen of some reach, overflows. -/
def overflows (line : PixelLine) (reach : Int) : Bool :=
  penOverflows reach line.x0 line.y0 || penOverflows reach line.x1 line.y1 ||
    !isInRange line.across || !isInRange line.along ||
    (!line.isShort && line.walkOverflows (line.across + line.along).toNat line.start)

end PixelLine

namespace Canvas

variable {R : Type} [Scalar R]

/-- Whether the sides of an outline, `thickness` pixels deep, overflow.  A side
counts as long as it has any pixels. -/
def strokeRectOverflows (rect : Rect R) (thickness : Int) : Bool :=
  let depth := max thickness 1
  let left := nearest rect.min.x
  let top := nearest rect.min.y
  let right := nearest rect.max.x
  let bottom := nearest rect.max.y
  let deepest (low high : Int) : Bool :=
    !isInRange (low + (depth - 1)) || !isInRange (high - depth)
  (left < right && deepest top bottom) || (top < bottom && deepest left right)

/-- Whether a straight line overflows. -/
def strokeLineOverflows (start finish : Vec R) (thickness : Int) : Bool :=
  (pixelLine start finish).overflows (penReach thickness)

/-- Whether one of the dashes of a line, from `travelled` on, has a property; at
most `count` of them are looked at. -/
@[specialize]
def anyDash (property : R × R → Bool) (length : R) : Nat → R → Bool
  | 0, _ => false
  | count + 1, travelled =>
    if travelled < length then
      let finish := Scalar.min (travelled + 6.0) length
      property (travelled, finish) || anyDash property length count (finish + 4.0)
    else false

/-- Whether a dashed line overflows. -/
@[specialize]
def strokeDashedOverflows (start finish : Vec R) (thickness : Int) : Bool :=
  let length := (finish - start).length
  if length ≤ Scalar.epsilon then false
  else
    let direction := (finish - start) * (1.0 / length)
    anyDash (fun dash => strokeLineOverflows (start + direction * dash.1)
      (start + direction * dash.2) thickness) length ((Scalar.trunc length).toNat + 1) 0.0

/-- The pixels of a side of length `size` that stand for the pixels from `low`
up to but not including `high` of a side stretched to `stretched` pixels.  On a
longer stretch no pixel between the first and the last one is left out. -/
def nearestPixels (R : Type) [Scalar R] (low high : Int) (size : Nat) (stretched : Int) :
    List Nat :=
  if high ≤ low then []
  else if high - low ≤ size then
    (span low high).map fun index => nearestPixel R index size stretched
  else
    let first := nearestPixel R low size stretched
    let last := nearestPixel R (high - 1) size stretched
    (List.range (last + 1 - first)).map fun (step : Nat) => first + step

/-- Whether a picture stretched over a rectangle overflows: whether one of its
pixels that show lands out of range. -/
def blitOverflows (picture : Picture) (area : Rect R) : Bool :=
  let width := nearest area.width
  let height := nearest area.height
  let left := nearest area.min.x
  let top := nearest area.min.y
  let shows (columns rows : List Nat) : Bool :=
    rows.any fun row => columns.any fun column => (picture.pixel column row).a != 0
  if width ≤ 0 || height ≤ 0 || picture.width == 0 || picture.height == 0 then false
  else if isInRange (left + width - 1) && isInRange (top + height - 1) then false
  else
    let columns (low : Int) := nearestPixels R low width picture.width width
    let rows (low : Int) := nearestPixels R low height picture.height height
    shows (columns (max 0 (Int.pow 2 63 - left))) (rows 0) ||
      shows (columns 0) (rows (max 0 (Int.pow 2 63 - top)))

end Canvas

end CodeAtlas
