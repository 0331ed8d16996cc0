import CodeAtlas.Decimal.Shortest

/-!
# Number text

A number is written positionally or with a power of ten.  A `Style` fixes
where the one ends and the other begins, how whole numbers and exponents look,
and how the words without digits are spelled; the digits themselves are always
the fewest that read back.
-/

namespace CodeAtlas.Decimal

/-- Decisions of a number format. -/
structure Style where
  /-- Powers of ten of the leading digit that are written positionally, or all
  of them. -/
  positional : Option (Int × Int)
  /-- Whether a whole number written positionally ends in `.0`. -/
  pointZero : Bool
  /-- Whether a power of ten that is not negative carries a plus sign. -/
  plusSign : Bool
  /-- Which of two equally near decimals is written. -/
  tie : Tie

namespace Style

/-- Every number positionally, whole numbers bare. -/
def plain : Style :=
  ⟨none, false, false, .larger⟩

/-- The form in which values are shown for inspection: positionally from
`0.0001` to below `1e16`, whole numbers with `.0`. -/
def inspected : Style :=
  ⟨some (-4, 15), true, false, .larger⟩

/-- Whether a number with this leading power of ten is written positionally. -/
def isPositional (style : Style) (power : Int) : Bool :=
  match style.positional with
  | none => true
  | some (low, high) => low ≤ power && power ≤ high

end Style

/-- `count` zeros. -/
def zeros (count : Nat) : String :=
  String.ofList (List.replicate count '0')

namespace Numeral

/-- The digits as text. -/
def digitText (value : Numeral) : List Char :=
  Nat.toDigits 10 value.digits

/-- The power of ten of the leading digit. -/
def leadingPower (value : Numeral) : Int :=
  value.digitText.length - 1 + value.exponent

/-- Positional text. -/
def positional (style : Style) (value : Numeral) : String :=
  let digits := value.digitText
  let whole := digits.length + value.exponent
  if 0 ≤ value.exponent then
    String.ofList digits ++ zeros value.exponent.toNat ++ (if style.pointZero then ".0" else "")
  else if 0 < whole then
    String.ofList (digits.take whole.toNat) ++ "." ++ String.ofList (digits.drop whole.toNat)
  else
    "0." ++ zeros (-whole).toNat ++ String.ofList digits

/-- Text with a power of ten. -/
def scientific (style : Style) (value : Numeral) : String :=
  let power := value.leadingPower
  let mantissa := match value.digitText with
    | [] => ""
    | [only] => String.ofList [only]
    | first :: rest => String.ofList (first :: '.' :: rest)
  let sign := if power < 0 then "-" else if style.plusSign then "+" else ""
  mantissa ++ "e" ++ sign ++ toString power.natAbs

end Numeral

namespace Style

/-- Text of a reading. -/
def write (style : Style) : Reading → String
  | .notANumber => "NaN"
  | .infinite negative => if negative then "-inf" else "inf"
  | .zero negative => (if negative then "-0" else "0") ++ (if style.pointZero then ".0" else "")
  | .finite negative value =>
    let decimal := value.shortest style.tie
    let text := if style.isPositional decimal.leadingPower
      then decimal.positional style else decimal.scientific style
    if negative then "-" ++ text else text

/-- Text of a single-precision number. -/
def single (style : Style) (x : Float32) : String :=
  style.write (.ofSingle x)

/-- Text of a double-precision number. -/
def double (style : Style) (x : Float) : String :=
  style.write (.ofDouble x)

end Style

end CodeAtlas.Decimal
