import Offside.Decimal.Shortest
import Offside.Text.Digit

/-!
# Numbers as they are written

Two notations for a double, both with the fewest digits that read back, and the reader for decimal
texts.

* `positional` never uses an exponent: `0.0000001`, `1000000000000000000000`.
* `scientific` is the notation of data files: a whole number keeps `.0`, and from seventeen digits
  before the point or six zeros after it on, an exponent is written.
* `read?` reads a decimal text to the nearest double.
-/

namespace Offside.Decimal

/-! ## Writing -/

/-- A positive decimal with all its digits and no exponent. -/
def Digits.positional (d : Digits) : Text :=
  let digits := Text.ofNat d.digits
  let point := digits.length + d.exponent
  if 0 ≤ d.exponent then digits ++ List.replicate d.exponent.toNat '0'
  else if 0 < point then digits.take point.toNat ++ "." ++ digits.drop point.toNat
  else "0." ++ List.replicate (-point).toNat '0' ++ digits

/-- A positive decimal in the notation of data files. -/
def Digits.scientific (d : Digits) : Text :=
  let digits := Text.ofNat d.digits
  let point := digits.length + d.exponent
  if 0 ≤ d.exponent ∧ point ≤ 16 then d.positional ++ ".0"
  else if -5 < point ∧ point ≤ 16 then d.positional
  else
    let fraction := digits.drop 1
    digits.take 1 ++ (if fraction.isEmpty then [] else '.' :: fraction) ++ "e" ++
      Text.ofInt (point - 1)

/-- Write a double with `write` for its magnitude and `zero` for a magnitude of zero. -/
def written (write : Digits → Text) (zero : Text) (x : Float) : Text :=
  match decode x with
  | .notANumber => "NaN"
  | .infinite negative => if negative then "-inf" else "inf"
  | .finite negative mantissa exponent =>
    let magnitude := if mantissa = 0 then zero else write (shortestDigits mantissa exponent)
    if negative then "-" ++ magnitude else magnitude

/-- A double with all its digits and no exponent. -/
def positional (x : Float) : Text := written Digits.positional "0" x

/-- A double in the notation of data files. -/
def scientific (x : Float) : Text := written Digits.scientific "0.0" x

/-! ## Reading -/

/-- The double nearest to `digits · 10 ^ exponent`.  Beyond four hundred places it is infinite or
zero whatever the digits are. -/
def nearest (digits : Nat) (exponent : Int) : Float :=
  let point := (Text.ofNat digits).length + exponent
  if digits = 0 then 0
  else if 400 < point then 1 / 0
  else if point < -400 then 0
  else Float.ofScientific digits (exponent < 0) exponent.natAbs

/-- The digits `0` to `9` at the beginning of a text, and what follows. -/
def spanDigits (t : Text) : Text × Text := t.span Char.isDigit

/-- The value of a text of digits `0` to `9`, zero if it is empty. -/
def digitsValue (t : Text) : Nat := (Text.natValue? t).getD 0

/-- The exponent at the end of a decimal text: nothing, or a mark, a sign and digits. -/
def readExponent? : Text → Option Int
  | [] => some 0
  | mark :: rest =>
    if mark.toLower ≠ 'e' then none
    else
      match rest with
      | '-' :: digits => (Text.natValue? digits).map fun n => -(n : Int)
      | '+' :: digits => (Text.natValue? digits).map fun n => (n : Int)
      | digits => (Text.natValue? digits).map fun n => (n : Int)

/-- Read an unsigned decimal text: digits with at most one point among them, then an exponent; or
the word for infinity or for what is not a number. -/
def readMagnitude? (t : Text) : Option Float :=
  let word := Text.lowerAscii t
  if word = "inf" || word = "infinity" then some (1 / 0)
  else if word = "nan" then some (0 / 0)
  else
    let (whole, rest) := spanDigits t
    let (fraction, rest) :=
      match rest with
      | '.' :: after => spanDigits after
      | _ => ([], rest)
    if whole.isEmpty && fraction.isEmpty then none
    else
      (readExponent? rest).map fun exponent =>
        nearest (digitsValue (whole ++ fraction)) (exponent - fraction.length)

/-- Read a decimal text to the nearest double. -/
def read? : Text → Option Float
  | '-' :: t => (readMagnitude? t).map fun x => -x
  | '+' :: t => readMagnitude? t
  | t => readMagnitude? t

end Offside.Decimal
