import CodeAtlas.Json.Error
import CodeAtlas.Number.Single
import CodeAtlas.Text.Piece

/-!
# The words of JSON

Blanks, names, strings and numbers, each read from the front of a text.  A
scanner answers with what it read and the rest of the text, or says that the
text ended too early or is malformed.

Integers within 64 bits are kept exactly.  Other numbers are computed in double
precision from the leading digits that fit into 64 bits and a power of ten.
-/

namespace CodeAtlas.Json

open CodeAtlas.Text (Piece)

/-- Whether a piece may stand between words. -/
def isSpace : Piece → Bool
  | .char c => c = ' ' || c = '\n' || c = '\t' || c = '\r'
  | .stray _ => false

/-- The text after its leading blanks. -/
def skipSpace (text : List Piece) : List Piece :=
  text.dropWhile isSpace

/-- Reads the given characters. -/
def keyword : List Char → List Piece → Except Error (List Piece)
  | [], text => .ok text
  | _ :: _, [] => .error .ended
  | c :: word, piece :: text => if piece = .char c then keyword word text else .error .malformed

/-! ## Strings -/

/-- The value of a hexadecimal digit. -/
def hexDigit? (c : Char) : Option Nat :=
  if '0' ≤ c ∧ c ≤ '9' then some (c.toNat - 48)
  else if 'a' ≤ c ∧ c ≤ 'f' then some (c.toNat - 87)
  else if 'A' ≤ c ∧ c ≤ 'F' then some (c.toNat - 55)
  else none

/-- The number spelled by hexadecimal digits. -/
def hexNumber? (digits : List Char) : Option Nat :=
  digits.foldl (fun value c => do pure ((← value) * 16 + (← hexDigit? c))) (some 0)

/-- The four-digit number at the front of the text. -/
def hexWord (text : List Piece) : Except Error Nat :=
  match text with
  | .char a :: .char b :: .char c :: .char d :: _ =>
    match hexNumber? [a, b, c, d] with
    | some value => .ok value
    | none => .error .malformed
  | _ =>
    if (text.take 4).foldl (fun size piece => size + piece.byteSize) 0 < 4 then .error .ended
    else .error .malformed

/-- Reads the second half of a character given as two numbers; the first half
is `lead`. -/
def pairedEscape (lead : Nat) : List Piece → Except Error (Char × Nat)
  | [] => .error .ended
  | [piece] => if piece = .char '\\' then .error .ended else .error .malformed
  | slash :: mark :: text =>
    if slash = .char '\\' ∧ mark = .char 'u' then do
      let trail ← hexWord text
      if 0xdc00 ≤ trail ∧ trail ≤ 0xdfff then
        .ok (Char.ofNat (0x10000 + (lead - 0xd800) * 1024 + (trail - 0xdc00)), 11)
      else .error .malformed
    else .error .malformed

/-- The character meant by what follows a backslash, and the number of pieces
that spell it. -/
def escape : List Piece → Except Error (Char × Nat)
  | [] => .error .ended
  | .stray _ :: _ => .error .malformed
  | .char c :: text =>
    match c with
    | '"' => .ok ('"', 1)
    | '\\' => .ok ('\\', 1)
    | '/' => .ok ('/', 1)
    | 'b' => .ok ('\x08', 1)
    | 'f' => .ok ('\x0c', 1)
    | 'n' => .ok ('\n', 1)
    | 'r' => .ok ('\r', 1)
    | 't' => .ok ('\t', 1)
    | 'u' => do
        let code ← hexWord text
        if 0xdc00 ≤ code ∧ code ≤ 0xdfff then .error .malformed
        else if 0xd800 ≤ code ∧ code ≤ 0xdbff then pairedEscape code (text.drop 4)
        else .ok (Char.ofNat code, 5)
    | _ => .error .malformed

/-- Reads a string after its opening quote.  The number counts the pieces that
the last escape still covers.  Strays are refused once the string is closed. -/
def stringBody : List Piece → Nat → Except Error (List Char × List Piece)
  | [], _ => .error .ended
  | _ :: text, covered + 1 => stringBody text covered
  | .stray _ :: text, 0 => do
      let _ ← stringBody text 0
      .error .malformed
  | .char c :: text, 0 =>
    if c = '"' then .ok ([], text)
    else if c = '\\' then do
      let (meant, size) ← escape text
      let (chars, rest) ← stringBody text size
      .ok (meant :: chars, rest)
    else if c.toNat < 0x20 then .error .malformed
    else do
      let (chars, rest) ← stringBody text 0
      .ok (c :: chars, rest)

/-- Reads a string after its opening quote. -/
def string (text : List Piece) : Except Error (String × List Piece) := do
  let (chars, rest) ← stringBody text 0
  .ok (String.ofList chars, rest)

/-- Whether what follows a backslash is an escape, and the number of pieces
that spell it; numbers need not name characters. -/
def skippedEscape : List Piece → Except Error Nat
  | [] => .error .ended
  | piece :: text =>
    if piece = .char 'u' then do
      let _ ← hexWord text
      .ok 5
    else if ['"', '\\', '/', 'b', 'f', 'n', 'r', 't'].any (piece = .char ·) then .ok 1
    else .error .malformed

/-- Skips a string after its opening quote. -/
def skipString : List Piece → Nat → Except Error (List Piece)
  | [], _ => .error .ended
  | _ :: text, covered + 1 => skipString text covered
  | .stray _ :: text, 0 => skipString text 0
  | .char c :: text, 0 =>
    if c = '"' then .ok text
    else if c = '\\' then do
      let size ← skippedEscape text
      skipString text size
    else if c.toNat < 0x20 then .error .malformed
    else skipString text 0

/-! ## Numbers -/

/-- A number of a document. -/
inductive Number where
  | whole (value : Int)
  | real (value : Float)

namespace Number

/-- The number in double precision. -/
def toFloat : Number → Float
  | whole value => Float.ofInt value
  | real value => value

/-- The number in single precision; whole numbers are rounded once. -/
def toSingle : Number → Float32
  | whole value => Float32.ofInt value
  | real value => Single.ofDouble value

/-- How the number is named in a message. -/
def found : Number → Found
  | whole value => .integer value
  | real value => .real value

end Number

/-- The value of a decimal digit. -/
def digit? : Piece → Option Nat
  | .char c => if '0' ≤ c ∧ c ≤ '9' then some (c.toNat - 48) else none
  | .stray _ => none

/-- The digits at the front of the text, and the rest. -/
def digits (text : List Piece) : List Nat × List Piece :=
  let isDigit := fun piece => (digit? piece).isSome
  ((text.takeWhile isDigit).filterMap digit?, text.dropWhile isDigit)

/-- The digits at the front of a text that has to start with one, and the
rest. -/
def someDigits (text : List Piece) : Except Error (List Nat × List Piece) :=
  match digits text with
  | ([], []) => .error .ended
  | ([], _ :: _) => .error .malformed
  | found => .ok found

/-- Appends digits to `significand` as long as the result fits into 64 bits,
and counts the digits left over. -/
def absorb (significand : Nat) : List Nat → Nat × Nat
  | [] => (significand, 0)
  | digit :: rest =>
    let next := significand * 10 + digit
    if next < Nat.pow 2 64 then absorb next rest else (significand, rest.length + 1)

/-- `value * 10 ^ exponent` for an exponent below what one division covers. -/
def scaleDown : Nat → Float → Int → Float
  | 0, value, _ => value
  | steps + 1, value, exponent =>
    if exponent.natAbs ≤ 308 then value / Float.ofScientific 1 false exponent.natAbs
    else if value == 0 then value
    else scaleDown steps (value / 1e308) (exponent + 308)

/-- `significand * 10 ^ exponent` in double precision. -/
def scaled (significand : Nat) (exponent : Int) : Except Error Float :=
  let value := Float.ofNat significand
  if exponent < 0 then .ok (scaleDown 4 value exponent)
  else if exponent ≤ 308 then
    let product := value * Float.ofScientific 1 false exponent.toNat
    if product.isInf then .error .malformed else .ok product
  else if value == 0 then .ok value
  else .error .malformed

/-- The number with its sign. -/
def signed (negative : Bool) (value : Float) : Number :=
  .real (if negative then -value else value)

/-- Whether the power of ten is negative, and the text after its sign. -/
def exponentSign : List Piece → Bool × List Piece
  | .char '+' :: rest => (false, rest)
  | .char '-' :: rest => (true, rest)
  | text => (false, text)

/-- `significand * 10 ^ (shift ± power)` for a power given by its digits. -/
def raised (significand : Nat) (shift : Int) (down : Bool) (power : List Nat) :
    Except Error Float :=
  let power : Nat := power.foldl (fun value digit => value * 10 + digit) 0
  if 2147483647 < power then
    if significand ≠ 0 ∧ ¬ down then .error .malformed else .ok 0
  else scaled significand (shift + (if down then -(power : Int) else power))

/-- Reads the power of ten after its mark. -/
def exponentPart (negative : Bool) (significand : Nat) (shift : Int) (text : List Piece) :
    Except Error (Number × List Piece) := do
  let (down, text) := exponentSign text
  let (power, rest) ← someDigits text
  let value ← raised significand shift down power
  .ok (signed negative value, rest)

/-- Whether the text goes on with a power of ten. -/
def exponentMark? : List Piece → Option (List Piece)
  | .char c :: rest => if c = 'e' ∨ c = 'E' then some rest else none
  | _ => none

/-- Reads the digits after the decimal point. -/
def fractionPart (negative : Bool) (significand : Nat) (shift : Int) (text : List Piece) :
    Except Error (Number × List Piece) := do
  let (fraction, rest) ← someDigits text
  let (significand, left) := absorb significand fraction
  let shift := shift - (fraction.length - left : Nat)
  match exponentMark? rest with
  | some rest => exponentPart negative significand shift rest
  | none => do
      let value ← scaled significand shift
      .ok (signed negative value, rest)

/-- The number of an integer without fraction and power. -/
def integer (negative : Bool) (significand : Nat) (shift : Nat) : Except Error Number :=
  if shift = 0 then
    if ¬ negative then .ok (.whole significand)
    else if significand = 0 ∨ Nat.pow 2 63 < significand then
      .ok (.real (-(Float.ofNat significand)))
    else .ok (.whole (-significand))
  else do
    let value ← scaled significand shift
    .ok (signed negative value)

/-- Whether the text goes on with a fraction. -/
def fractionMark? : List Piece → Option (List Piece)
  | .char '.' :: rest => some rest
  | _ => none

/-- Whether digits start with a zero that more of them follow. -/
def padded : List Nat → Bool
  | 0 :: _ :: _ => true
  | _ => false

/-- Reads a number after its sign. -/
def number (negative : Bool) (text : List Piece) : Except Error (Number × List Piece) := do
  let (whole, rest) ← someDigits text
  if padded whole then .error .malformed
  else
    let (significand, left) := absorb 0 whole
    match exponentMark? rest, fractionMark? rest with
    | some rest, _ => exponentPart negative significand left rest
    | none, some rest => fractionPart negative significand left rest
    | none, none => do
        let value ← integer negative significand left
        .ok (value, rest)

/-- Skips the digits of a number that must have one. -/
def skipDigits (text : List Piece) : Except Error (List Piece) :=
  match digits text with
  | ([], _) => .error .malformed
  | (_, rest) => .ok rest

/-- Skips a number after its sign; its size does not matter. -/
def skipNumber (text : List Piece) : Except Error (List Piece) := do
  let skipPower := fun (text : List Piece) => match exponentMark? text with
    | some (.char '+' :: rest) => skipDigits rest
    | some (.char '-' :: rest) => skipDigits rest
    | some rest => skipDigits rest
    | none => .ok text
  match digits text with
  | ([], _) => .error .malformed
  | (0 :: _ :: _, _) => .error .malformed
  | (_, .char '.' :: rest) => do skipPower (← skipDigits rest)
  | (_, rest) => skipPower rest

end CodeAtlas.Json
