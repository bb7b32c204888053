import Offside.Decimal.Binary
import Offside.Text.Basic

/-!
# The fewest digits that read back

A double is written with the fewest decimal digits that still read back as the same double.  The
reals that read back as `m · 2 ^ q` form an interval around it, reaching half-way to the two
neighbouring doubles, ends included exactly when `m` is even.  For one digit, two digits, … the two
points of that decimal grid next to the double are tested against the interval; the first grid with
a point inside wins, and of two points the nearer one, the upper one if both are equally near.

All tests are comparisons of natural numbers: the interval is scaled by a common denominator.
-/

namespace Offside.Decimal

/-- A positive decimal `digits · 10 ^ exponent`, with no trailing zero in the digits. -/
structure Digits where
  digits : Nat
  exponent : Int
  deriving Repr, DecidableEq

namespace Digits

/-- Move trailing zeros of the digits into the exponent; at most `fuel` of them. -/
def trimZeros : Nat → Nat → Int → Digits
  | 0, digits, exponent => ⟨digits, exponent⟩
  | fuel + 1, digits, exponent =>
    if digits ≠ 0 ∧ digits % 10 = 0 then trimZeros fuel (digits / 10) (exponent + 1)
    else ⟨digits, exponent⟩

end Digits

/-- An interval of reals around `value`, all three scaled by the common denominator `unit`. -/
structure Interval where
  lower : Nat
  value : Nat
  upper : Nat
  unit : Nat
  closed : Bool

namespace Interval

/-- The reals that read back as `mantissa · 2 ^ exponent`.  Below a power of two the neighbouring
double is only half as far away. -/
def around (mantissa : Nat) (exponent : Int) : Interval :=
  let below := if mantissa = hiddenBit ∧ exponent ≠ -1074 then 1 else 2
  let scale := Nat.pow 2 (exponent - 2).toNat
  { lower := (4 * mantissa - below) * scale
    value := 4 * mantissa * scale
    upper := (4 * mantissa + 2) * scale
    unit := Nat.pow 2 (2 - exponent).toNat
    closed := mantissa % 2 == 0 }

/-- Whether `point / unit` lies in the interval. -/
def contains (i : Interval) (point : Nat) : Bool :=
  if i.closed then i.lower ≤ point && point ≤ i.upper else i.lower < point && point < i.upper

/-- The number `p` with `10 ^ (p - 1) ≤ value / unit < 10 ^ p`. -/
def magnitude (i : Interval) : Int :=
  if i.unit ≤ i.value then (Nat.toDigits 10 (i.value / i.unit)).length
  else -(((List.range 400).find? fun k => i.unit ≤ i.value * Nat.pow 10 (k + 1)).getD 0 : Nat)

/-- The same interval in steps of `10 ^ step`. -/
def inSteps (i : Interval) (step : Int) : Interval :=
  let scale := Nat.pow 10 (-step).toNat
  { i with
    lower := i.lower * scale
    value := i.value * scale
    upper := i.upper * scale
    unit := i.unit * Nat.pow 10 step.toNat }

/-- The multiple of `10 ^ step` inside the interval that is nearest to the value, if there is
one. -/
def nearestIn (i : Interval) (step : Int) : Option Nat :=
  let grid := i.inSteps step
  let low := grid.value / grid.unit
  let toLow := grid.value - low * grid.unit
  let toHigh := (low + 1) * grid.unit - grid.value
  match grid.contains (low * grid.unit), grid.contains ((low + 1) * grid.unit) with
  | true, true => some (if toLow < toHigh then low else low + 1)
  | true, false => some low
  | false, true => some (low + 1)
  | false, false => none

/-- The shortest decimal inside the interval; seventeen digits always suffice. -/
def shortest (i : Interval) : Digits :=
  let magnitude := i.magnitude
  let found := (List.range 17).findSome? fun n =>
    let step := magnitude - (n + 1 : Nat)
    (i.nearestIn step).map fun digits => Digits.trimZeros 20 digits step
  found.getD ⟨0, 0⟩

end Interval

/-- The fewest digits that read back as the positive double `mantissa · 2 ^ exponent`. -/
def shortestDigits (mantissa : Nat) (exponent : Int) : Digits :=
  (Interval.around mantissa exponent).shortest

end Offside.Decimal
