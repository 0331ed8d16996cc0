import CodeAtlas.Geometry.Rect
import CodeAtlas.Label.Font

/-!
# Faces of rectangles

A plain kind of font.  A face gives every character an advance and the
rectangles it is made of, in font units with the second coordinate upwards.  Set
at a size, characters advance by whole pixels, and each pixel of a character is
covered by the area of it that the rectangles take.
-/

namespace CodeAtlas

/-- A rectangle of a glyph, in font units, given by two opposite corners. -/
structure GlyphRect where
  x0 : Int
  y0 : Int
  x1 : Int
  y1 : Int
deriving DecidableEq, Repr

namespace GlyphRect

/-- Whether the rectangle has a height.  One without is no part of its glyph,
while one without a width still counts for the extent of it. -/
def isTall (rect : GlyphRect) : Bool :=
  rect.y0 != rect.y1

end GlyphRect

structure Glyph where
  advance : Int
  rects : List GlyphRect
deriving Repr

/-- A set of glyphs with the measures of a line. -/
structure Face where
  unitsPerEm : Nat
  ascent : Int
  descent : Int
  lineGap : Int
  /-- Stands for characters without a glyph. -/
  missing : Glyph
  glyphs : List (Char × Glyph)

namespace Face

/-- The glyph of a character.  Control characters have none and do not
advance. -/
def glyph (face : Face) (c : Char) : Glyph :=
  if c.toNat < 0x20 || c.toNat == 0x7f then ⟨0, []⟩
  else (face.glyphs.lookup c).getD face.missing

variable {R : Type} [Scalar R]

/-- Pixels per font unit. -/
def scale (face : Face) (size : R) : R :=
  size / Scalar.ofNat face.unitsPerEm

def line (face : Face) (size : R) : LineMetrics R :=
  let ascent := Scalar.ofInt face.ascent * face.scale size
  let descent := Scalar.ofInt face.descent * face.scale size
  ⟨ascent, descent, ascent - descent + Scalar.ofInt face.lineGap * face.scale size⟩

end Face

namespace Glyph

variable {R : Type} [Scalar R]

/-- The rectangles in pixels, the second coordinate downwards from the
baseline. -/
def areas (glyph : Glyph) (scale : R) : List (Rect R) :=
  (glyph.rects.filter (·.isTall)).map fun rect =>
    ⟨⟨Scalar.ofInt (min rect.x0 rect.x1) * scale, -(Scalar.ofInt (max rect.y0 rect.y1) * scale)⟩,
      ⟨Scalar.ofInt (max rect.x0 rect.x1) * scale, -(Scalar.ofInt (min rect.y0 rect.y1) * scale)⟩⟩

/-- The least rectangle of whole pixels around the glyph, if it has any
ink. -/
def box? (glyph : Glyph) (scale : R) : Option (Rect R) :=
  if 0.0 < scale then
    (Rect.unionAll (glyph.areas scale)).map fun bounds =>
      ⟨⟨Scalar.floor bounds.min.x, Scalar.floor bounds.min.y⟩,
        ⟨Scalar.ceil bounds.max.x, Scalar.ceil bounds.max.y⟩⟩
  else none

/-- The length that two intervals share. -/
def overlap (low high low' high' : R) : R :=
  Scalar.max (Scalar.min high high' - Scalar.max low low') 0.0

/-- The share of a pixel that the glyph covers. -/
def coverage (areas : List (Rect R)) (x y : R) : R :=
  areas.foldl (fun sum area =>
    sum + overlap area.min.x area.max.x x (x + 1.0) * overlap area.min.y area.max.y y (y + 1.0)) 0.0

/-- The glyph at a size, on the baseline of a line that starts at `left` and with
the pen moved along it. -/
def place (glyph : Glyph) (scale left baseline pen : R) : PlacedGlyph R :=
  match glyph.box? scale with
  | none => ⟨⟨pen + left, baseline⟩, 0, 0, ⟨0, 0, fun _ _ => 0⟩⟩
  | some box =>
    let areas := glyph.areas scale
    let width := (Scalar.trunc box.width).toNat
    let height := (Scalar.trunc box.height).toNat
    ⟨⟨pen + box.min.x + left, baseline + box.min.y⟩, width, height, width, height, fun row column =>
      Scalar.toByte (coverage areas (box.min.x + Scalar.ofNat column)
        (box.min.y + Scalar.ofNat row) * 255.9)⟩

end Glyph

namespace Face

variable {R : Type} [Scalar R]

/-- Whether the line ends after a character: after a line feed, a vertical tab,
a form feed, a next line, a line separator or a paragraph separator, and after a
carriage return that no line feed follows. -/
def endsLine (c : Char) (next : Option Char) : Bool :=
  match c.toNat with
  | 0x0a | 0x0b | 0x0c | 0x85 | 0x2028 | 0x2029 => true
  | 0x0d => next != some '\n'
  | _ => false

/-- Sets the characters of a text from a pen position on.  The character after
the end of a line starts the next one. -/
def setFrom (face : Face) (size : R) (start : Vec R) :
    List Char → R → Nat → List (PlacedGlyph R)
  | [], _, _ => []
  | c :: rest, pen, line =>
    let glyph := face.glyph c
    let scale := face.scale size
    let metrics := face.line size
    let drop := Scalar.ceil metrics.newLineSize * Scalar.ofNat line
    glyph.place scale start.x (start.y + Scalar.ceil metrics.ascent + drop) pen ::
      if endsLine c rest.head? then face.setFrom size start rest 0.0 (line + 1)
      else face.setFrom size start rest
        (pen + Scalar.ceil (Scalar.ofInt glyph.advance * scale)) line

/-- The face as a font. -/
def font (face : Face) : Font R where
  line? size := some (face.line size)
  set size start text := face.setFrom size start text.toList 0.0 0

end Face

end CodeAtlas
