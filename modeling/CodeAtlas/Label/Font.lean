import CodeAtlas.Folder
import CodeAtlas.Geometry.Vec

/-!
# Fonts

A font is what a reader of font files makes of one: it gives the measures of a
line and sets a text, glyph by glyph.  Nothing is assumed of how it does so.
-/

namespace CodeAtlas

/-- The measures of a line at a size; what hangs below the baseline counts as
negative. -/
structure LineMetrics (R : Type) where
  ascent : R
  descent : R
  /-- The distance from one line to the next. -/
  newLineSize : R

/-- The picture of a glyph: how much each pixel is covered, by row and
column. -/
structure GlyphPicture where
  width : Nat
  height : Nat
  coverage : Nat → Nat → UInt8

/-- A glyph with its place in a text. -/
structure PlacedGlyph (R : Type) where
  /-- The upper left corner. -/
  corner : Vec R
  width : Nat
  height : Nat
  picture : GlyphPicture

structure Font (R : Type) where
  /-- The measures of a line at a size, if the font has any. -/
  line? : R → Option (LineMetrics R)
  /-- The glyphs of a text at a size, with the first line starting at a
  point. -/
  set : R → Vec R → String → List (PlacedGlyph R)

/-- The fonts that a program can use. -/
structure Fonts (R : Type) where
  /-- The font in a file, if the file holds one. -/
  read : List Text.Piece → Option (Font R)
  /-- The font that comes with the program, if it is of use. -/
  bundled : Option (Font R) := none
  /-- The file to use when none is configured. -/
  preferred : Option PathName := none

namespace Fonts

variable {R : Type}

/-- No file is known to hold a font, and none comes with the program. -/
def unknown : Fonts R :=
  { read := fun _ => none }

/-- The font of the configured file or else of the preferred one; the font that
comes with the program if that file is of no use or there is none. -/
def choose (fonts : Fonts R) (files : FileReader) (configured : Option PathName) :
    Option (Font R) :=
  ((configured.or fonts.preferred).bind fun path =>
    match files path with
    | .ok content => fonts.read content
    | .error _ => none).or fonts.bundled

end Fonts

end CodeAtlas
