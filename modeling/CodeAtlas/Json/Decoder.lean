import CodeAtlas.Json.Value

/-!
# Decoders

A decoder reads one JSON value of an expected shape from the front of a text.
Reading is a single pass: the first thing that is wrong, in the order of the
text, is the error that is reported.

The loops over list items and object fields carry a bound on their number of
rounds.  Every round reads at least one character, so a number above the length
of the whole text is such a bound.
-/

namespace CodeAtlas.Json

open CodeAtlas.Text (Piece)

/-- What a decoder may use up. -/
structure Room where
  /-- Brackets that may still be opened inside one another. -/
  depth : Nat
  /-- A bound on the items of any list and the fields of any object. -/
  rounds : Nat

/-- Reads an `α` from the front of a text. -/
def Decoder (α : Type) : Type :=
  Room → List Piece → Except Error (α × List Piece)

namespace Decoder

variable {α β : Type}

/-- Applies a function to what is read. -/
def map (f : α → β) (decoder : Decoder α) : Decoder β := fun room text => do
  let (value, rest) ← decoder room text
  .ok (f value, rest)

/-- Refuses with a cause some of what is read. -/
def check (f : α → Except Mismatch β) (decoder : Decoder α) : Decoder β := fun room text => do
  let (value, rest) ← decoder room text
  match f value with
  | .ok result => .ok (result, rest)
  | .error cause => .error (.mismatch cause)

end Decoder

/-! ## Unexpected values -/

/-- The error for the value at the front of the text when `expected` was
expected.  Words and numbers are read before they are refused. -/
def refuse (expected : String) (text : List Piece) : Error :=
  let answer : Except Error Found := match text with
    | .char 'n' :: rest => do
        let _ ← keyword ['u', 'l', 'l'] rest
        .ok .null
    | .char 't' :: rest => do
        let _ ← keyword ['r', 'u', 'e'] rest
        .ok (.boolean true)
    | .char 'f' :: rest => do
        let _ ← keyword ['a', 'l', 's', 'e'] rest
        .ok (.boolean false)
    | .char '-' :: rest => do
        let (value, _) ← number true rest
        .ok value.found
    | .char '"' :: rest => do
        let (value, _) ← string rest
        .ok (.text value)
    | .char '[' :: _ => .ok .sequence
    | .char '\x7b' :: _ => .ok .map
    | piece :: rest =>
      if (digit? piece).isSome then do
        let (value, _) ← number false (piece :: rest)
        .ok value.found
      else .error .malformed
    | [] => .error .malformed
  match answer with
  | .ok found => .mismatch (.invalidType found expected)
  | .error error => error

/-! ## Single values -/

namespace Decoder

/-- Reads a string, named `expected` in messages. -/
def stringAs (expected : String) : Decoder String := fun _ text =>
  match skipSpace text with
  | [] => .error .ended
  | .char '"' :: rest => Json.string rest
  | rest => .error (refuse expected rest)

def string : Decoder String :=
  stringAs "a string"

def boolean : Decoder Bool := fun _ text =>
  match skipSpace text with
  | [] => .error .ended
  | .char 't' :: rest => do .ok (true, ← keyword ['r', 'u', 'e'] rest)
  | .char 'f' :: rest => do .ok (false, ← keyword ['a', 'l', 's', 'e'] rest)
  | rest => .error (refuse "a boolean" rest)

/-- Reads a number, named `expected` in messages. -/
def numberAs (expected : String) : Decoder Number := fun _ text =>
  match skipSpace text with
  | [] => .error .ended
  | .char '-' :: rest => Json.number true rest
  | piece :: rest =>
    if (digit? piece).isSome then Json.number false (piece :: rest)
    else .error (refuse expected (piece :: rest))

/-- Reads a single-precision number. -/
def single : Decoder Float32 :=
  (numberAs "f32").map Number.toSingle

/-- Reads a count: a whole number that is not negative. -/
def count : Decoder Nat :=
  (numberAs "usize").check fun value => match value with
    | .whole value =>
      if 0 ≤ value then .ok value.toNat
      else .error (.invalidValue (.integer value) "usize")
    | .real value => .error (.invalidType (.real value) "usize")

/-- Reads `null` and nothing else. -/
def null : Decoder Unit := fun _ text =>
  match skipSpace text with
  | [] => .error .ended
  | .char 'n' :: rest => do .ok ((), ← keyword ['u', 'l', 'l'] rest)
  | rest => .error (refuse "unit" rest)

/-- Reads `null` or an `α`. -/
def optional {α : Type} (decoder : Decoder α) : Decoder (Option α) := fun room text =>
  match skipSpace text with
  | [] => .error .ended
  | .char 'n' :: rest => do .ok (none, ← keyword ['u', 'l', 'l'] rest)
  | rest => decoder.map some room rest

end Decoder

/-! ## Lists -/

/-- Whether a further item follows in a list, and where it starts; `first`
tells that none has been read. -/
def nextItem (first : Bool) (text : List Piece) : Except Error (Option (List Piece)) :=
  match skipSpace text with
  | [] => .error .ended
  | .char ']' :: _ => .ok none
  | piece :: rest =>
    if first then .ok (some (piece :: rest))
    else if piece = .char ',' then
      match skipSpace rest with
      | [] => .error .ended
      | .char ']' :: _ => .error .malformed
      | rest => .ok (some rest)
    else .error .malformed

/-- Reads the bracket that closes a list. -/
def closeList (text : List Piece) : Except Error (List Piece) :=
  match skipSpace text with
  | [] => .error .ended
  | .char ']' :: rest => .ok rest
  | _ => .error .malformed

/-- Reads the items of a list up to its closing bracket, in at most `rounds`
rounds. -/
def items {α : Type} (item : List Piece → Except Error (α × List Piece)) :
    Nat → Bool → List Piece → Except Error (List α × List Piece)
  | 0, _, _ => .error .malformed
  | rounds + 1, first, text => do
      match ← nextItem first text with
      | none => .ok ([], ← closeList text)
      | some text =>
        let (value, rest) ← item text
        let (values, rest) ← items item rounds false rest
        .ok (value :: values, rest)

/-! ## Objects -/

/-- The next field name of an object and the text after it, if a field
follows. -/
def nextName (first : Bool) (text : List Piece) : Except Error (Option (String × List Piece)) :=
  match skipSpace text with
  | [] => .error .ended
  | .char '\x7d' :: _ => .ok none
  | piece :: rest =>
    let start : Except Error (List Piece) :=
      if first then .ok (piece :: rest)
      else if piece = .char ',' then .ok (skipSpace rest)
      else .error .malformed
    do match ← start with
      | [] => .error .ended
      | .char '"' :: rest => do .ok (some (← string rest))
      | _ => .error .malformed

/-- Reads the colon between a field's name and its value. -/
def colon (text : List Piece) : Except Error (List Piece) :=
  match skipSpace text with
  | [] => .error .ended
  | .char ':' :: rest => .ok rest
  | _ => .error .malformed

/-- Reads the brace that closes an object. -/
def closeObject (text : List Piece) : Except Error (List Piece) :=
  match skipSpace text with
  | [] => .error .ended
  | .char '\x7d' :: rest => .ok rest
  | _ => .error .malformed

/-- Folds over the fields of an object up to its closing brace, in at most
`rounds` rounds; `field` is given the name and the text after it. -/
def fields {σ : Type} (field : σ → String → List Piece → Except Error (σ × List Piece)) :
    Nat → Bool → σ → List Piece → Except Error (σ × List Piece)
  | 0, _, _, _ => .error .malformed
  | rounds + 1, first, state, text => do
      match ← nextName first text with
      | none => .ok (state, text)
      | some (name, rest) =>
        let (state, rest) ← field state name rest
        fields field rounds false state rest

/-! ## Values of any shape -/

/-- Reads the fields of an object up to its closing brace. -/
def objectFields (rounds : Nat) (read : List Piece → Except Error (Value × List Piece))
    (text : List Piece) : Except Error (Fields × List Piece) := do
  let field := fun (entries : Fields) name rest => do
    let (entry, rest) ← read (← colon rest)
    .ok (entries.insert name entry, rest)
  let (entries, rest) ← fields field rounds true [] text
  .ok (entries, ← closeObject rest)

/-- Reads a value of any shape. -/
def value (rounds : Nat) : Nat → List Piece → Except Error (Value × List Piece)
  | depth, text =>
    match skipSpace text with
    | [] => .error .ended
    | .char 'n' :: rest => do .ok (.null, ← keyword ['u', 'l', 'l'] rest)
    | .char 't' :: rest => do .ok (.boolean true, ← keyword ['r', 'u', 'e'] rest)
    | .char 'f' :: rest => do .ok (.boolean false, ← keyword ['a', 'l', 's', 'e'] rest)
    | .char '-' :: rest => do
        let (value, rest) ← number true rest
        .ok (.number value, rest)
    | .char '"' :: rest => do
        let (value, rest) ← string rest
        .ok (.string value, rest)
    | .char '[' :: rest =>
      match depth with
      | 0 => .error .malformed
      | depth + 1 => do
          let (values, rest) ← items (value rounds depth) rounds true rest
          .ok (.array values, rest)
    | .char '\x7b' :: rest =>
      match depth with
      | 0 => .error .malformed
      | depth + 1 => do
          let (entries, rest) ← objectFields rounds (value rounds depth) rest
          .ok (.object entries, rest)
    | piece :: rest =>
      if (digit? piece).isSome then do
        let (value, rest) ← number false (piece :: rest)
        .ok (.number value, rest)
      else .error .malformed

namespace Decoder

variable {α : Type}

/-- Reads a list. -/
def list (item : Decoder α) : Decoder (List α) := fun room text =>
  match skipSpace text with
  | [] => .error .ended
  | .char '[' :: rest =>
    match room.depth with
    | 0 => .error .malformed
    | depth + 1 => items (item ⟨depth, room.rounds⟩) room.rounds true rest
  | rest => .error (refuse "a sequence" rest)

/-- Reads an object whose fields have values of any shape. -/
def object : Decoder Fields := fun room text =>
  match skipSpace text with
  | [] => .error .ended
  | .char '\x7b' :: rest =>
    match room.depth with
    | 0 => .error .malformed
    | depth + 1 => objectFields room.rounds (value room.rounds depth) rest
  | rest => .error (refuse "a map" rest)

/-- Reads a value of any shape. -/
def anything : Decoder Value := fun room text =>
  value room.rounds room.depth text

/-- Reads a whole text: one value with nothing but blanks around it. -/
def run (decoder : Decoder α) (text : List Piece) : Except Error α := do
  let (value, rest) ← decoder ⟨127, text.length + 1⟩ text
  match skipSpace rest with
  | [] => .ok value
  | _ => .error .malformed

end Decoder

end CodeAtlas.Json
