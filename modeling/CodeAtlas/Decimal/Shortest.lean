import CodeAtlas.Decimal.Binary

/-!
# The fewest digits that read back

The reals that round to a floating-point number form an interval around it,
ends included exactly when the mantissa is even.  Among the decimal grids
`10 ^ k`, the coarsest one with a point in that interval gives the fewest
digits, and of its points in the interval the nearest one is taken.

Since a grid that meets the interval meets it next to the number, only the two
grid points around the number are tested.
-/

namespace CodeAtlas.Decimal

/-- The decimal `digits * 10 ^ exponent`. -/
structure Numeral where
  digits : Nat
  exponent : Int
deriving DecidableEq, Repr

/-- Which of two equally near decimals is taken. -/
inductive Tie where
  | larger
  | even
deriving DecidableEq, Repr

namespace Binary

/-- Factors that bring a quarter of the unit of `value` and the grid
`10 ^ place` to a common whole unit. -/
def commonUnit (value : Binary) (place : Int) : Nat × Nat :=
  let quarter := value.exponent - 2
  (Nat.pow 2 quarter.toNat * Nat.pow 10 (-place).toNat,
    Nat.pow 10 place.toNat * Nat.pow 2 (-quarter).toNat)

/-- Whether `point * 10 ^ place` rounds to `value`. -/
def accepts (value : Binary) (place : Int) (point : Nat) : Bool :=
  let (ours, theirs) := value.commonUnit place
  let low := (4 * value.mantissa - (if value.narrowBelow then 1 else 2)) * ours
  let high := (4 * value.mantissa + 2) * ours
  let at' := point * theirs
  if value.mantissa % 2 == 0 then low ≤ at' && at' ≤ high else low < at' && at' < high

/-- The point of the grid `10 ^ place` that stands for `value`, if some point
of the grid rounds to it. -/
def onGrid (tie : Tie) (value : Binary) (place : Int) : Option Nat :=
  let (ours, theirs) := value.commonUnit place
  let exact := 4 * value.mantissa * ours
  let below := exact / theirs
  let above := below + 1
  match value.accepts place below, value.accepts place above with
  | false, false => none
  | true, false => some below
  | false, true => some above
  | true, true =>
    let down := exact - below * theirs
    let up := above * theirs - exact
    if down < up then some below
    else if up < down then some above
    else match tie with
      | .larger => some above
      | .even => some (if below % 2 == 0 then below else above)

/-- A place at or above the leading digit of `value`. -/
def leadingPlace (value : Binary) : Int :=
  ((Nat.log2 value.mantissa + 1 : Nat) + value.exponent) * 30103 / 100000 + 1

/-- The decimal of fewest digits that rounds to `value`. -/
def shortest (tie : Tie) (value : Binary) : Numeral :=
  let start := value.leadingPlace
  ((List.range 24).findSome? fun (step : Nat) =>
    (value.onGrid tie (start - step)).map fun point => ⟨point, start - step⟩).getD ⟨0, 0⟩

end Binary

end CodeAtlas.Decimal
