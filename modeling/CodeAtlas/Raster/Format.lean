import CodeAtlas.Text.Blank

/-!
# Picture formats

The extension of a file name tells how a picture is kept in the file.  Some
formats have no room for large pictures.
-/

namespace CodeAtlas

/-- How a picture is kept in a file. -/
inductive PictureFormat where
  | png
  | bmp
  | tga
  | pam
  | tiff
  | qoi
  | ico
  | gif
  | webp
  | avif
deriving DecidableEq, Repr

namespace PictureFormat

/-- The format of an extension, in any case. -/
def ofExtension? (extension : String) : Option PictureFormat :=
  match Text.lowerAscii extension with
  | "png" | "apng" => some png
  | "bmp" => some bmp
  | "tga" => some tga
  | "pam" | "pbm" | "pgm" | "pnm" | "ppm" => some pam
  | "tif" | "tiff" => some tiff
  | "qoi" => some qoi
  | "ico" => some ico
  | "gif" => some gif
  | "webp" => some webp
  | "avif" => some avif
  | _ => none

/-- The longest side that a file of the format can hold. -/
def longestSide : PictureFormat → Nat
  | ico => 256
  | webp => 16384
  | tga | gif | avif => 65535
  | png | bmp | pam | tiff | qoi => 2147483647

/-- The most pixels that a file of the format can hold, where they are limited
apart from the sides. -/
def mostPixels? : PictureFormat → Option Nat
  | qoi => some 400000000
  | _ => none

/-- Whether a file of the format can hold a picture of this size. -/
def holds (format : PictureFormat) (width height : Nat) : Bool :=
  width ≤ format.longestSide && height ≤ format.longestSide &&
    match format.mostPixels? with
    | some count => width * height ≤ count
    | none => true

/-- Whether there is a reader for files of the format. -/
def isReadable : PictureFormat → Bool
  | avif => false
  | _ => true

end PictureFormat

end CodeAtlas
