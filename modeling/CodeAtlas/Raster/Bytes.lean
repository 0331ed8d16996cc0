/-!
# Bytes of files

Whole numbers as bytes, sums over bytes, and streams of bits.  Nothing is
compressed: where a format wants a compressed stream, its means to store bytes
as they are serve.
-/

namespace CodeAtlas

namespace Bytes

/-- The lowest bytes of a number, lowest first. -/
def little (count value : Nat) : ByteArray :=
  ((List.range count).map fun (i : Nat) => UInt8.ofNat (value / Nat.pow 256 i)).toByteArray

/-- The lowest bytes of a number, highest first. -/
def big (count value : Nat) : ByteArray :=
  ((List.range count).reverse.map fun (i : Nat) => UInt8.ofNat (value / Nat.pow 256 i)).toByteArray

/-- One shift of the remainder of a cyclic redundancy check. -/
def shift (remainder : UInt32) : UInt32 :=
  if remainder &&& 1 == 1 then (remainder >>> 1) ^^^ 0xedb88320 else remainder >>> 1

/-- Eight shifts of every byte. -/
def shiftTable : Array UInt32 :=
  ((List.range 256).map fun (byte : Nat) =>
    (List.range 8).foldl (fun remainder (_ : Nat) => shift remainder) (UInt32.ofNat byte)).toArray

/-- The cyclic redundancy check over 32 bits. -/
def checksum (bytes : ByteArray) : UInt32 :=
  bytes.foldl (fun remainder byte =>
    shiftTable.getD ((remainder ^^^ byte.toUInt32) &&& 0xff).toNat 0 ^^^ (remainder >>> 8))
    0xffffffff ^^^ 0xffffffff

/-- The two running sums modulo 65521, the second one above the first. -/
def runningSums (bytes : ByteArray) : Nat :=
  let (first, second) := bytes.foldl (fun (sums : Nat × Nat) byte =>
    let first := (sums.1 + byte.toNat) % 65521
    (first, (sums.2 + first) % 65521)) (1, 0)
  second * 65536 + first

/-- The bytes as a stream of stored blocks, each with its length and the
complement of it; `offset` tells where the next block starts. -/
def storedBlocks (bytes : ByteArray) : Nat → Nat → ByteArray → ByteArray
  | 0, _, stream => stream
  | rounds + 1, offset, stream =>
    let size := min 65535 (bytes.size - offset)
    let isLast : UInt8 := if offset + size = bytes.size then 1 else 0
    let block := (stream.push isLast) ++ little 2 size ++ little 2 (65535 - size) ++
      bytes.extract offset (offset + size)
    if isLast == 1 then block else storedBlocks bytes rounds (offset + size) block

/-- The bytes as a stream that is marked as compressed but only stored. -/
def stored (bytes : ByteArray) : ByteArray :=
  storedBlocks bytes (bytes.size / 65535 + 1) 0 [0x78, 0x01].toByteArray ++
    big 4 (runningSums bytes)

end Bytes

/-- A stream of bits, the lowest bit of every byte first. -/
structure BitStream where
  bytes : ByteArray := ByteArray.empty
  /-- The bits that fill no byte yet. -/
  pending : Nat := 0
  /-- How many they are. -/
  count : Nat := 0

namespace BitStream

/-- Moves up to `rounds` full bytes out of the pending bits. -/
def drain : Nat → BitStream → BitStream
  | 0, stream => stream
  | rounds + 1, stream =>
    if stream.count < 8 then stream
    else drain rounds
      ⟨stream.bytes.push (UInt8.ofNat stream.pending), stream.pending / 256, stream.count - 8⟩

/-- Appends the lowest `width` bits of a number. -/
def push (stream : BitStream) (width value : Nat) : BitStream :=
  drain (width / 8 + 1)
    ⟨stream.bytes, stream.pending + value % Nat.pow 2 width * Nat.pow 2 stream.count,
      stream.count + width⟩

/-- Appends numbers of `width` bits each. -/
def pushAll (stream : BitStream) (width : Nat) (values : List Nat) : BitStream :=
  values.foldl (fun stream (value : Nat) => stream.push width value) stream

/-- All bytes, the last one filled up with zeros. -/
def finish (stream : BitStream) : ByteArray :=
  if stream.count = 0 then stream.bytes else stream.bytes.push (UInt8.ofNat stream.pending)

end BitStream

end CodeAtlas
