import CodeAtlas.Json.Decoder

/-!
# Ignored values

The value of a field that no one asked for is skipped.  It must be JSON, yet it
may nest as deep as it likes, its numbers may be of any size, and its strings
need not be well-formed characters.
-/

namespace CodeAtlas.Json

open CodeAtlas.Text (Piece)

/-- A bracket that is still open. -/
inductive Bracket where
  | list
  | object
deriving DecidableEq

namespace Bracket

/-- The piece that closes the bracket. -/
def closing : Bracket → Piece
  | list => .char ']'
  | object => .char '\x7d'

end Bracket

/-- Where in a skipped value the reader stands. -/
inductive SkipPlace where
  | value
  | afterOpening
  | afterItem
deriving DecidableEq

/-- Skips a value without brackets. -/
def skipScalar : List Piece → Except Error (List Piece)
  | .char 'n' :: rest => keyword ['u', 'l', 'l'] rest
  | .char 't' :: rest => keyword ['r', 'u', 'e'] rest
  | .char 'f' :: rest => keyword ['a', 'l', 's', 'e'] rest
  | .char '-' :: rest => skipNumber rest
  | .char '"' :: rest => skipString rest 0
  | piece :: rest =>
    if (digit? piece).isSome then skipNumber (piece :: rest) else .error .malformed
  | [] => .error .ended

/-- Skips what stands before the next item inside a bracket: the field name and
colon of an object. -/
def skipItemHead : Bracket → List Piece → Except Error (List Piece)
  | .list, text => .ok text
  | .object, text =>
    match skipSpace text with
    | [] => .error .ended
    | .char '"' :: rest => do colon (← skipString rest 0)
    | _ => .error .malformed

/-- Skips on from a place inside the given open brackets, innermost first, in
at most `rounds` rounds. -/
def skipFrom : Nat → SkipPlace → List Bracket → List Piece → Except Error (List Piece)
  | 0, _, _, _ => .error .malformed
  | rounds + 1, .value, brackets, text =>
    match skipSpace text with
    | [] => .error .ended
    | .char '[' :: rest => skipFrom rounds .afterOpening (.list :: brackets) rest
    | .char '\x7b' :: rest => skipFrom rounds .afterOpening (.object :: brackets) rest
    | rest => do skipFrom rounds .afterItem brackets (← skipScalar rest)
  | _ + 1, _, [], text => .ok text
  | rounds + 1, place, bracket :: brackets, text =>
    match skipSpace text with
    | [] => .error .ended
    | piece :: rest =>
      if piece = bracket.closing then skipFrom rounds .afterItem brackets rest
      else if place = .afterOpening then do
        skipFrom rounds .value (bracket :: brackets) (← skipItemHead bracket (piece :: rest))
      else if piece = .char ',' then do
        skipFrom rounds .value (bracket :: brackets) (← skipItemHead bracket rest)
      else .error .malformed

namespace Decoder

/-- Skips one value. -/
def ignored : Decoder Unit := fun room text => do
  .ok ((), ← skipFrom (2 * room.rounds + 2) .value [] text)

end Decoder

end CodeAtlas.Json
