/-!
# Binary floating point as mantissa and exponent

A floating-point word is read as a sign and, unless it is zero, infinite or no
number, a mantissa times a power of two.  Everything about decimal text is
computed from this reading, in whole numbers.
-/

namespace CodeAtlas.Decimal

/-- The positive number `mantissa * 2 ^ exponent`.  `narrowBelow` tells that
the gap to the next smaller number of the format is half the gap above, which
happens at powers of two. -/
structure Binary where
  mantissa : Nat
  exponent : Int
  narrowBelow : Bool
deriving DecidableEq, Repr

/-- What a floating-point word stands for. -/
inductive Reading where
  | notANumber
  | infinite (negative : Bool)
  | zero (negative : Bool)
  | finite (negative : Bool) (value : Binary)
deriving DecidableEq, Repr

namespace Reading

/-- Reads a word with the given numbers of fraction and exponent bits. -/
def ofWord (fractionBits exponentBits : Nat) (word : Nat) : Reading :=
  let fraction := word % Nat.pow 2 fractionBits
  let biased := word / Nat.pow 2 fractionBits % Nat.pow 2 exponentBits
  let negative := word / Nat.pow 2 (fractionBits + exponentBits) % 2 == 1
  let least : Int := 2 - Int.pow 2 (exponentBits - 1) - fractionBits
  if biased == Nat.pow 2 exponentBits - 1 then
    if fraction == 0 then .infinite negative else .notANumber
  else if biased == 0 then
    if fraction == 0 then .zero negative else .finite negative ⟨fraction, least, false⟩
  else
    .finite negative
      ⟨Nat.pow 2 fractionBits + fraction, least + (biased - 1 : Nat),
        fraction == 0 && biased != 1⟩

def ofSingle (x : Float32) : Reading :=
  ofWord 23 8 x.toBits.toNat

def ofDouble (x : Float) : Reading :=
  ofWord 52 11 x.toBits.toNat

end Reading

end CodeAtlas.Decimal
