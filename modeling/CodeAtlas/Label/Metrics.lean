import CodeAtlas.Decimal.Style
import CodeAtlas.Label.Font
import CodeAtlas.Raster.Canvas

/-!
# Label text

Texts are measured and turned into pictures once, and the pictures are reused
by every frame.  Without a font every character is as wide as every other and
labels are plain plates.
-/

namespace CodeAtlas

/-- How a label looks. -/
structure LabelStyle (R : Type) where
  text : Color
  background : Color
  paddingX : R

/-- A text with its picture. -/
structure LabelBitmap where
  text : String
  picture : Picture

namespace LabelBitmap

def width (label : LabelBitmap) : Nat :=
  label.picture.width

def height (label : LabelBitmap) : Nat :=
  label.picture.height

/-- Width and height as a displacement. -/
def size {R : Type} [Scalar R] (label : LabelBitmap) : Vec R :=
  ⟨Scalar.ofNat label.width, Scalar.ofNat label.height⟩

end LabelBitmap

/-- Measures and draws texts at a size. -/
structure TextMetrics (R : Type) where
  font : Option (Font R)
  fontSize : R

namespace TextMetrics

variable {R : Type} [Scalar R]

/-- Metrics without a font. -/
def monospace (fontSize : R) : TextMetrics R :=
  ⟨none, fontSize⟩

/-- The metrics with the font that is chosen for a configured file, which may
be missing or of no use. -/
def load (fonts : Fonts R) (files : FileReader) (configured : Option PathName) (fontSize : R) :
    TextMetrics R :=
  ⟨fonts.choose files configured, fontSize⟩

def hasFont (metrics : TextMetrics R) : Bool :=
  metrics.font.isSome

/-- The measures of a line, if the font has any. -/
def line? (metrics : TextMetrics R) : Option (LineMetrics R) :=
  metrics.font.bind fun font => font.line? metrics.fontSize

/-- The height of a line. -/
def lineHeight (metrics : TextMetrics R) : R :=
  match metrics.line? with
  | some line => line.newLineSize
  | none => metrics.fontSize * 1.3

/-- From the leftmost to the rightmost edge of the glyphs of a text. -/
def extent (glyphs : List (PlacedGlyph R)) : R × R :=
  glyphs.foldl (fun (low, high) glyph =>
    (Scalar.min low glyph.corner.x, Scalar.max high (glyph.corner.x + Scalar.ofNat glyph.width)))
    (Scalar.infinity, -Scalar.infinity)

/-- Whether a scalar is a number with a limit. -/
def isFinite (x : R) : Bool :=
  -Scalar.infinity < x && x < Scalar.infinity

/-- The width of a text. -/
def measure (metrics : TextMetrics R) (text : String) : R :=
  match metrics.font with
  | none => Scalar.ofNat text.length * metrics.fontSize * 0.6
  | some font =>
    let (low, high) := extent (font.set metrics.fontSize ⟨0.0, 0.0⟩ text)
    if isFinite low && isFinite high then Scalar.max (high - low) 0.0 else 0.0

/-- The width of the plate of a text. -/
def plateWidth (metrics : TextMetrics R) (text : String) (paddingX : R) : Nat :=
  Scalar.toPixels (Scalar.max (Scalar.ceil (metrics.measure text + paddingX * 2.0)) 1.0)

/-- The height of every plate. -/
def plateHeight (metrics : TextMetrics R) : Nat :=
  Scalar.toPixels (Scalar.max (Scalar.ceil (metrics.lineHeight + 4.0)) 1.0)

/-- Where a text starts that is centred on a line through the middle. -/
def top (metrics : TextMetrics R) (middle : R) : R :=
  match metrics.line? with
  | some line => middle + (line.ascent + line.descent) * 0.5 - line.ascent
  | none => middle - metrics.fontSize * 0.5

/-- Blends a glyph onto a canvas, pixel by pixel. -/
def blendGlyph (color : Color) (canvas : Canvas) (glyph : PlacedGlyph R) : Canvas :=
  let startX := Scalar.trunc (Scalar.floor glyph.corner.x)
  let startY := Scalar.trunc (Scalar.floor glyph.corner.y)
  let picture := glyph.picture
  (List.range picture.height).foldl (fun canvas row =>
    (List.range picture.width).foldl (fun canvas column =>
      let byte := picture.coverage row column
      if byte == 0 then canvas
      else canvas.blend R (startX + column) (startY + row) color byte) canvas) canvas

/-- The picture of a text: its glyphs on a plate, from left to right and
vertically centred. -/
def rasterize (metrics : TextMetrics R) (text : String) (style : LabelStyle R) : LabelBitmap :=
  let width := metrics.plateWidth text style.paddingX
  let height := metrics.plateHeight
  match metrics.font with
  | none => ⟨text, .plate width height style.background⟩
  | some font =>
    let start : Vec R := ⟨style.paddingX, metrics.top (Scalar.ofNat height * 0.5)⟩
    let glyphs := (font.set metrics.fontSize start text).filter fun glyph =>
      glyph.width != 0 && glyph.height != 0
    ⟨text, (glyphs.foldl (blendGlyph style.text) (.blank width height style.background)).picture⟩

end TextMetrics

/-- The metrics as shown for inspection. -/
def TextMetrics.inspect (metrics : TextMetrics Float32) : String :=
  "TextMetrics \x7b has_font: " ++ (if metrics.hasFont then "true" else "false") ++
    ", font_size: " ++ Decimal.Style.inspected.single metrics.fontSize ++ " \x7d"

end CodeAtlas
