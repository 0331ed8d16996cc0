import CodeAtlas.Raster.Bytes
import CodeAtlas.Raster.Canvas

/-!
# Plain picture files

Formats that keep the channels of every pixel one after the other.
-/

namespace CodeAtlas

namespace Picture

/-- The pixels of a row, written one after the other. -/
@[specialize]
def writeRow {σ : Type} (picture : Picture) (write : σ → Color → σ) (state : σ) (y : Nat) : σ :=
  (List.range picture.width).foldl (fun state (x : Nat) => write state (picture.pixel x y)) state

/-- All pixels, row by row from the top. -/
@[specialize]
def writeRows {σ : Type} (picture : Picture) (write : σ → Color → σ) (state : σ) : σ :=
  (List.range picture.height).foldl (picture.writeRow write) state

/-- Red, green, blue and opacity. -/
def writeRgba (bytes : ByteArray) (color : Color) : ByteArray :=
  (((bytes.push color.r).push color.g).push color.b).push color.a

/-- Blue, green, red and opacity. -/
def writeBgra (bytes : ByteArray) (color : Color) : ByteArray :=
  (((bytes.push color.b).push color.g).push color.r).push color.a

/-- A named chunk with its length and its checksum. -/
def pngChunk (name : String) (content : ByteArray) : ByteArray :=
  let body := name.toUTF8 ++ content
  Bytes.big 4 content.size ++ body ++ Bytes.big 4 (Bytes.checksum body).toNat

def png (picture : Picture) : ByteArray :=
  let rows := (List.range picture.height).foldl (fun bytes (y : Nat) =>
    picture.writeRow writeRgba (bytes.push 0) y) ByteArray.empty
  [0x89, 0x50, 0x4e, 0x47, 0x0d, 0x0a, 0x1a, 0x0a].toByteArray ++
    pngChunk "IHDR" (Bytes.big 4 picture.width ++ Bytes.big 4 picture.height ++
      [8, 6, 0, 0, 0].toByteArray) ++
    pngChunk "IDAT" (Bytes.stored rows) ++
    pngChunk "IEND" ByteArray.empty

def bmp (picture : Picture) : ByteArray :=
  let pixels := (List.range picture.height).reverse.foldl (picture.writeRow writeBgra)
    ByteArray.empty
  let zeros (count : Nat) : ByteArray := Bytes.little count 0
  "BM".toUTF8 ++ Bytes.little 4 (122 + pixels.size) ++ zeros 4 ++ Bytes.little 4 122 ++
    Bytes.little 4 108 ++ Bytes.little 4 picture.width ++ Bytes.little 4 picture.height ++
    Bytes.little 2 1 ++ Bytes.little 2 32 ++ Bytes.little 4 3 ++ Bytes.little 4 pixels.size ++
    zeros 16 ++ Bytes.little 4 0x00ff0000 ++ Bytes.little 4 0x0000ff00 ++
    Bytes.little 4 0x000000ff ++ Bytes.little 4 0xff000000 ++ Bytes.little 4 0x73524742 ++
    zeros 48 ++ pixels

def tga (picture : Picture) : ByteArray :=
  [0, 0, 2, 0, 0, 0, 0, 0, 0, 0, 0, 0].toByteArray ++ Bytes.little 2 picture.width ++
    Bytes.little 2 picture.height ++ [32, 0x28].toByteArray ++
    picture.writeRows writeBgra ByteArray.empty

def pam (picture : Picture) : ByteArray :=
  let heading := "P7\nWIDTH " ++ toString picture.width ++ "\nHEIGHT " ++ toString picture.height ++
    "\nDEPTH 4\nMAXVAL 255\nTUPLTYPE RGB_ALPHA\nENDHDR\n"
  picture.writeRows writeRgba heading.toUTF8

/-- An entry of a directory: its tag, its kind, the number of its values and
the value itself or where the values stand. -/
def tiffEntry (tag kind count value : Nat) : ByteArray :=
  Bytes.little 2 tag ++ Bytes.little 2 kind ++ Bytes.little 4 count ++ Bytes.little 4 value

/-- A directory of eleven entries, the widths of the four channels, and the
pixels in a single strip. -/
def tiff (picture : Picture) : ByteArray :=
  let heading := "II".toUTF8 ++ Bytes.little 2 42 ++ Bytes.little 4 8 ++ Bytes.little 2 11 ++
    tiffEntry 256 4 1 picture.width ++
    tiffEntry 257 4 1 picture.height ++
    tiffEntry 258 3 4 146 ++
    tiffEntry 259 3 1 1 ++
    tiffEntry 262 3 1 2 ++
    tiffEntry 273 4 1 154 ++
    tiffEntry 277 3 1 4 ++
    tiffEntry 278 4 1 picture.height ++
    tiffEntry 279 4 1 (4 * picture.width * picture.height) ++
    tiffEntry 284 3 1 1 ++
    tiffEntry 338 3 1 2 ++
    Bytes.little 4 0 ++ [8, 0, 8, 0, 8, 0, 8, 0].toByteArray
  picture.writeRows writeRgba heading

/-- Every pixel is spelled out by itself. -/
def qoi (picture : Picture) : ByteArray :=
  let heading := "qoif".toUTF8 ++ Bytes.big 4 picture.width ++ Bytes.big 4 picture.height ++
    [4, 0].toByteArray
  picture.writeRows (fun bytes color => writeRgba (bytes.push 0xff) color) heading ++
    [0, 0, 0, 0, 0, 0, 0, 1].toByteArray

/-- An icon file with one picture, which is itself a `png` file.  A side of 256
pixels is written as zero. -/
def ico (picture : Picture) : ByteArray :=
  let content := picture.png
  [0, 0, 1, 0, 1, 0].toByteArray ++ Bytes.little 1 picture.width ++
    Bytes.little 1 picture.height ++ [0, 0, 1, 0, 32, 0].toByteArray ++
    Bytes.little 4 content.size ++ Bytes.little 4 22 ++ content

end Picture

end CodeAtlas
