import CodeAtlas.Raster.Plain

/-!
# Picture files made of boxes

A box has a length, a name of four letters and a content, which may be boxes
again.  One of them describes the picture and another one holds its pixels as
they are.
-/

namespace CodeAtlas

namespace Bytes

/-- The contents one after the other. -/
def concat (contents : List ByteArray) : ByteArray :=
  contents.foldl (· ++ ·) ByteArray.empty

/-- A named box around contents. -/
def box (name : String) (contents : List ByteArray) : ByteArray :=
  let content := concat contents
  big 4 (8 + content.size) ++ name.toUTF8 ++ content

/-- A named box that starts with a version. -/
def versionedBox (name : String) (version : Nat) (contents : List ByteArray) : ByteArray :=
  box name (big 1 version :: big 3 0 :: contents)

end Bytes

namespace Picture

open Bytes (big box versionedBox)

/-- The size of the picture, its four channels of eight bits, and how they
lie. -/
def avifProperties (picture : Picture) : ByteArray :=
  let channel (i : Nat) : ByteArray := big 2 i ++ [7, 0, 0].toByteArray
  box "iprp" [
    box "ipco" [
      versionedBox "ispe" 0 [big 4 picture.width, big 4 picture.height],
      box "cmpd" [big 4 4, big 2 4, big 2 5, big 2 6, big 2 7],
      versionedBox "uncC" 0 [big 4 0, big 4 4, channel 0, channel 1, channel 2, channel 3,
        [0, 1, 0, 0].toByteArray, big 4 0, big 4 0, big 4 0, big 4 0, big 4 0]],
    versionedBox "ipma" 0 [big 4 1, big 2 1, [3, 0x81, 0x82, 0x83].toByteArray]]

/-- The description of the picture, whose pixels start at `offset`. -/
def avifHeading (picture : Picture) (offset : Nat) : ByteArray :=
  box "ftyp" ["avif".toUTF8, big 4 0, "avifmif1".toUTF8] ++
    versionedBox "meta" 0 [
      versionedBox "hdlr" 0 [big 4 0, "pict".toUTF8, big 12 0, big 1 0],
      versionedBox "pitm" 0 [big 2 1],
      versionedBox "iloc" 0 [[0x44, 0].toByteArray, big 2 1, big 2 1, big 2 0, big 2 1,
        big 4 offset, big 4 (4 * picture.width * picture.height)],
      versionedBox "iinf" 0 [big 2 1,
        versionedBox "infe" 2 [big 2 1, big 2 0, "unci".toUTF8, big 1 0]],
      picture.avifProperties]

/-- The length of the description does not depend on where the pixels start. -/
def avif (picture : Picture) : ByteArray :=
  picture.avifHeading ((picture.avifHeading 0).size + 8) ++
    box "mdat" [picture.writeRows writeRgba ByteArray.empty]

end Picture

end CodeAtlas
