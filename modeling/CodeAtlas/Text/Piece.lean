/-!
# Bytes as characters

A file is a list of bytes that should spell characters.  `Piece.ofBytes` reads
every well-formed character and keeps each byte that belongs to none as a
stray, so that a reader may decide at the right moment whether strays matter.
-/

namespace CodeAtlas.Text

/-- A character of a file, or a byte that belongs to no character. -/
inductive Piece where
  | char (c : Char)
  | stray (byte : UInt8)
deriving DecidableEq, Repr

namespace Piece

/-- The number of bytes of a piece. -/
def byteSize : Piece → Nat
  | char c => c.utf8Size
  | stray _ => 1

/-- Whether a piece is a byte that belongs to no character. -/
def isStray : Piece → Bool
  | char _ => false
  | stray _ => true

/-- The pieces of a text: its characters. -/
def ofString (text : String) : List Piece :=
  text.toList.map char

/-- Whether a byte continues a character. -/
def isTrail (byte : UInt8) : Bool :=
  0x80 ≤ byte && byte < 0xc0

/-- The payload of a trailing byte. -/
def trailBits (byte : UInt8) : Nat :=
  byte.toNat % 64

/-- Reads one character from the front of the bytes, with the number of bytes
it takes. -/
def first? : List UInt8 → Option (Char × Nat)
  | [] => none
  | a :: rest =>
    if a < 0x80 then some (Char.ofNat a.toNat, 1)
    else if 0xc2 ≤ a && a < 0xe0 then
      match rest with
      | b :: _ =>
        if isTrail b then some (Char.ofNat (a.toNat % 32 * 64 + trailBits b), 2) else none
      | [] => none
    else if 0xe0 ≤ a && a < 0xf0 then
      match rest with
      | b :: c :: _ =>
        let code := a.toNat % 16 * 4096 + trailBits b * 64 + trailBits c
        if isTrail b && isTrail c && 0x800 ≤ code && (code < 0xd800 || 0xe000 ≤ code) then
          some (Char.ofNat code, 3)
        else none
      | _ => none
    else if 0xf0 ≤ a && a < 0xf5 then
      match rest with
      | b :: c :: d :: _ =>
        let code := a.toNat % 8 * 262144 + trailBits b * 4096 + trailBits c * 64 + trailBits d
        if isTrail b && isTrail c && isTrail d && 0x10000 ≤ code && code < 0x110000 then
          some (Char.ofNat code, 4)
        else none
      | _ => none
    else none

/-- The pieces of a byte list.  The second argument counts the bytes that the
character just read still covers. -/
def ofBytesFrom : List UInt8 → Nat → List Piece
  | [], _ => []
  | _ :: rest, covered + 1 => ofBytesFrom rest covered
  | byte :: rest, 0 =>
    match first? (byte :: rest) with
    | some (c, size) => char c :: ofBytesFrom rest (size - 1)
    | none => stray byte :: ofBytesFrom rest 0

/-- The pieces of a byte list. -/
def ofBytes (bytes : List UInt8) : List Piece :=
  ofBytesFrom bytes 0

end Piece

end CodeAtlas.Text
