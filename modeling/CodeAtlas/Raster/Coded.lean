import CodeAtlas.Raster.Plain

/-!
# Coded picture files

Formats that keep pixels as codes of a few bits.  The codes used here are the
plainest ones that the formats know: all of one width.
-/

namespace CodeAtlas

/-- The colours of a picture that numbers stand for, at most 256. -/
abbrev Palette := Array Color

namespace Palette

/-- The palette with a colour in it, as long as there is room. -/
def insert (palette : Palette) (color : Color) : Palette :=
  if palette.contains color || 256 ≤ palette.size then palette else palette.push color

/-- The square of the distance of two colours. -/
def distance (a b : Color) : Nat :=
  let square (x y : UInt8) : Nat := Nat.pow ((x.toNat : Int) - y.toNat).natAbs 2
  square a.r b.r + square a.g b.g + square a.b b.b

/-- The number of the nearest colour; the first of equally near ones. -/
def nearest (palette : Palette) (color : Color) : Nat :=
  let best := palette.foldl (fun (best : Nat × Nat × Nat) known =>
    let (number, least, current) := best
    if distance known color < least then (current, distance known color, current + 1)
    else (number, least, current + 1)) (0, 3 * Nat.pow 256 2, 0)
  best.1

/-- The number of a colour, or else of the nearest one. -/
def number (palette : Palette) (color : Color) : Nat :=
  (palette.idxOf? color).getD (palette.nearest color)

end Palette

namespace Picture

/-- The colours of the picture in the order in which they first appear. -/
def palette (picture : Picture) : Palette :=
  picture.writeRows Palette.insert #[]

/-! ## Numbered colours -/

/-- The bytes in blocks of at most 255, each with its length; `offset` tells
where the next block starts. -/
def gifBlocks (bytes : ByteArray) : Nat → Nat → ByteArray → ByteArray
  | 0, _, blocks => blocks
  | rounds + 1, offset, blocks =>
    let size := min 255 (bytes.size - offset)
    if size = 0 then blocks
    else gifBlocks bytes rounds (offset + size)
      (blocks.push (UInt8.ofNat size) ++ bytes.extract offset (offset + size))

/-- Writes the number of a colour in nine bits.  Codes stay that wide as long as
the table of longer codes is cleared before it has grown to 512 entries. -/
def writeGifCode (palette : Palette) (state : BitStream × Nat) (color : Color) :
    BitStream × Nat :=
  let (stream, written) := state
  let stream := if written % 254 = 0 then stream.push 9 256 else stream
  (stream.push 9 (palette.number color), written + 1)

/-- Opacity is not kept. -/
def gif (picture : Picture) : ByteArray :=
  let palette := picture.palette
  let table := (List.range 256).foldl (fun bytes (i : Nat) =>
    let color := palette.getD i default
    ((bytes.push color.r).push color.g).push color.b) ByteArray.empty
  let size := Bytes.little 2 picture.width ++ Bytes.little 2 picture.height
  let codes := (((picture.writeRows (writeGifCode palette) ({}, 0)).1).push 9 257).finish
  "GIF89a".toUTF8 ++ size ++ [0xf7, 0, 0].toByteArray ++ table ++
    [0x2c, 0, 0, 0, 0].toByteArray ++ size ++ [0, 8].toByteArray ++
    gifBlocks codes (codes.size / 255 + 1) 0 ByteArray.empty ++ [0, 0x3b].toByteArray

/-! ## Codes of eight bits -/

/-- The lowest eight bits in reverse. -/
def reversedByte (value : Nat) : Nat :=
  (List.range 8).foldl (fun reversed (i : Nat) => 2 * reversed + value / Nat.pow 2 i % 2) 0

/-- Describes a code that gives eight bits to each of the first 256 of `count`
values and none to the rest.  The lengths zero and eight are themselves told by
one bit each. -/
def pushByteCode (stream : BitStream) (count : Nat) : BitStream :=
  let stream := (stream.push 1 0).push 4 8
  let stream := stream.pushAll 3 [0, 0, 1, 0, 0, 0, 0, 0, 0, 0, 0, 1]
  let stream := stream.push 1 0
  stream.pushAll 1 ((List.range count).map fun (i : Nat) => if i < 256 then 1 else 0)

/-- Describes a code for a single value, which takes no bits. -/
def pushEmptyCode (stream : BitStream) : BitStream :=
  (((stream.push 1 1).push 1 0).push 1 0).push 1 0

/-- Writes green, red, blue and opacity, the highest bits first. -/
def writeByteCodes (stream : BitStream) (color : Color) : BitStream :=
  stream.pushAll 8 ([color.g, color.r, color.b, color.a].map fun channel =>
    reversedByte channel.toNat)

def webp (picture : Picture) : ByteArray :=
  let stream := (({} : BitStream).push 8 0x2f).push 14 (picture.width - 1)
  let stream := ((stream.push 14 (picture.height - 1)).push 1 1).push 3 0
  let stream := stream.pushAll 1 [0, 0, 0]
  let stream := [280, 256, 256, 256].foldl pushByteCode stream
  let content := (picture.writeRows writeByteCodes (pushEmptyCode stream)).finish
  let padded := if content.size % 2 = 0 then content else content.push 0
  "RIFF".toUTF8 ++ Bytes.little 4 (12 + padded.size) ++ "WEBPVP8L".toUTF8 ++
    Bytes.little 4 content.size ++ padded

end Picture

end CodeAtlas
