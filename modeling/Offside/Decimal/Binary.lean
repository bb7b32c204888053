/-!
# Binary floating point, opened up

A double is a sign, a natural mantissa and a power of two, or it is infinite, or not a number.
`decode` reads that off the 64 bits, and everything this library has to do exactly with doubles is
done on the mantissa and the exponent in whole-number arithmetic: rounding to the nearest whole
number here, the fewest digits that read back in `Offside.Decimal.Shortest`.
-/

namespace Offside.Decimal

/-- What the 64 bits of a double stand for.  A finite one is `mantissa · 2 ^ exponent`, with the
sign kept apart so that zero has one too. -/
inductive Binary where
  | notANumber
  | infinite (negative : Bool)
  | finite (negative : Bool) (mantissa : Nat) (exponent : Int)
  deriving Repr, DecidableEq

/-- The bit above the fifty-two bits of fraction, which every normal double has without writing it.
-/
def hiddenBit : Nat := 0x10000000000000

/-- The bit that tells the sign. -/
def signBit : Nat := 0x8000000000000000

/-- Read a double off its bits: one sign bit, eleven bits of exponent, fifty-two of fraction. -/
def decode (x : Float) : Binary :=
  let bits := x.toBits.toNat
  let negative := bits / signBit == 1
  let exponent : Nat := bits / hiddenBit % 2048
  let fraction : Nat := bits % hiddenBit
  if exponent = 2047 then
    if fraction = 0 then .infinite negative else .notANumber
  else if exponent = 0 then .finite negative fraction (-1074)
  else .finite negative (fraction + hiddenBit) ((exponent : Int) - 1075)

/-- The whole number nearest to `mantissa · 2 ^ exponent`; a half goes away from zero. -/
def nearestWhole (mantissa : Nat) : Int → Nat
  | .ofNat up => mantissa * Nat.pow 2 up
  | .negSucc down => (mantissa + Nat.pow 2 down) / Nat.pow 2 (down + 1)

/-- Round to the nearest whole number; a half goes away from zero.  A double with a non-negative
exponent is whole already. -/
def roundWhole (x : Float) : Float :=
  match decode x with
  | .finite negative mantissa (.negSucc down) =>
    let whole := Float.ofNat (nearestWhole mantissa (.negSucc down))
    if negative then -whole else whole
  | _ => x

end Offside.Decimal
