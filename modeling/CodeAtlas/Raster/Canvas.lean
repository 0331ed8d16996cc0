import CodeAtlas.Color

/-!
# Pictures and canvases

A picture gives a colour to every pixel of a rectangle.  A canvas is a picture
that can be painted on; what falls beside it is ignored.
-/

namespace CodeAtlas

/-- A rectangle of pixels that can be looked at. -/
structure Picture where
  width : Nat
  height : Nat
  pixel : Nat → Nat → Color

namespace Picture

/-- A picture of one colour. -/
def plate (width height : Nat) (color : Color) : Picture :=
  ⟨width, height, fun _ _ => color⟩

/-- Whether a picture of this size can be held at all. -/
def fits (width height : Nat) : Bool :=
  4 * width * height < Nat.pow 2 63

/-- Whether every pixel has the given colour. -/
def isPlain (picture : Picture) (color : Color) : Bool :=
  picture.height.all fun y _ => picture.width.all fun x _ => picture.pixel x y == color

end Picture

namespace Color

/-- A colour laid over another with the given coverage.  Where nothing at all
shows, the colour below stays as it is. -/
@[specialize]
def laidOver (R : Type) [Scalar R] (below color : Color) (coverage : UInt8) : Color :=
  let above : R := channel color.a / 255.0 * (channel coverage / 255.0)
  let rest : R := channel below.a / 255.0 * (1.0 - above)
  let opacity := above + rest
  if opacity ≤ Scalar.epsilon then below
  else
    let mix := fun (source target : UInt8) =>
      Scalar.toByte (Scalar.round ((channel source * above + channel target * rest) / opacity))
    ⟨mix color.r below.r, mix color.g below.g, mix color.b below.b,
      Scalar.toByte (Scalar.round (opacity * 255.0))⟩

end Color

/-- A rectangle of pixels that can be painted on, row by row. -/
structure Canvas where
  width : Nat
  height : Nat
  pixels : Array Color

namespace Canvas

/-- A canvas of one colour. -/
def blank (width height : Nat) (color : Color) : Canvas :=
  ⟨width, height, Array.replicate (width * height) color⟩

/-- The colour of a pixel. -/
def pixel (canvas : Canvas) (x y : Nat) : Color :=
  canvas.pixels.getD (y * canvas.width + x) default

/-- The canvas to be looked at. -/
def picture (canvas : Canvas) : Picture :=
  ⟨canvas.width, canvas.height, canvas.pixel⟩

/-- Whether a position lies on the canvas. -/
@[inline]
def holds (canvas : Canvas) (x y : Int) : Bool :=
  0 ≤ x && 0 ≤ y && x < canvas.width && y < canvas.height

/-- Lays a colour over a pixel. -/
@[specialize]
def blend (R : Type) [Scalar R] (canvas : Canvas) (x y : Int) (color : Color)
    (coverage : UInt8) : Canvas :=
  if canvas.holds x y then
    { canvas with
      pixels := canvas.pixels.modify (y.toNat * canvas.width + x.toNat) fun below =>
        below.laidOver R color coverage }
  else canvas

/-- The whole numbers from `low` up to but not including `high`. -/
def span (low high : Int) : List Int :=
  (List.range (high - low).toNat).map fun (step : Nat) => low + step

/-- The numbers of a span that are columns of the canvas. -/
def columns (canvas : Canvas) (low high : Int) : List Int :=
  span (max low 0) (min high canvas.width)

/-- The numbers of a span that are rows of the canvas. -/
def rows (canvas : Canvas) (low high : Int) : List Int :=
  span (max low 0) (min high canvas.height)

/-- Lays a colour over the given positions, one after the other. -/
@[specialize]
def paint (R : Type) [Scalar R] (canvas : Canvas) (color : Color) (cells : List (Int × Int)) :
    Canvas :=
  cells.foldl (fun canvas cell => canvas.blend R cell.1 cell.2 color 255) canvas

end Canvas

end CodeAtlas
