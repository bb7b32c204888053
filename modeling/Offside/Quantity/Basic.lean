import Offside.Quantity.Color
import Offside.Text.Blank

/-!
# Quantities

What stands on either side of an operator is a number, a length with its unit, a color, or any other
text.  `Quantity.ofText` decides which; every text is exactly one of them.  `Quantity.text` writes a
quantity back, and that text is what a longer expression goes on computing with.
-/

namespace Offside

/-! ## Units of length -/

/-- The units a length can have. -/
inductive LengthUnit where
  | px | em | ex | pt | inch | mm | cm | percent
  deriving Repr, DecidableEq

namespace LengthUnit

/-- How a unit is written. -/
def text : LengthUnit → Text
  | px => "px"
  | em => "em"
  | ex => "ex"
  | pt => "pt"
  | inch => "in"
  | mm => "mm"
  | cm => "cm"
  | percent => "%"

/-- All units. -/
def all : List LengthUnit := [px, em, ex, pt, inch, mm, cm, percent]

/-- The unit that a text names, in any case. -/
def ofText? (t : Text) : Option LengthUnit :=
  all.find? fun unit => unit.text == Text.lowerAscii t

end LengthUnit

/-! ## Numerals -/

/-- Round to ten places, which takes off the noise of binary fractions. -/
def roundNoise (x : Float) : Float := Decimal.roundWhole (x * 1e10) / 1e10

/-- A number as it is written in results: ten places at most, no exponent, and no sign on zero. -/
def numberText (x : Float) : Text :=
  let rounded := roundNoise x
  if rounded == 0 then "0" else Decimal.positional rounded

/-- The digits at the beginning of a text and what follows them. -/
def spanAnyDigits (t : Text) : Text × Text := t.span Text.isDigit

/-- An unsigned numeral at the beginning of a text: digits with an optional point after them, or a
point with digits after it. -/
def spanUnsigned? (t : Text) : Option (Text × Text) :=
  match spanAnyDigits t with
  | ([], '.' :: after) =>
    match spanAnyDigits after with
    | ([], _) => none
    | (fraction, rest) => some ('.' :: fraction, rest)
  | ([], _) => none
  | (whole, '.' :: after) =>
    let (fraction, rest) := spanAnyDigits after
    some (whole ++ '.' :: fraction, rest)
  | (whole, rest) => some (whole, rest)

/-- A numeral at the beginning of a text, with an optional minus sign. -/
def spanNumeral? : Text → Option (Text × Text)
  | '-' :: t => (spanUnsigned? t).map fun (numeral, rest) => ('-' :: numeral, rest)
  | t => spanUnsigned? t

/-! ## Colors as they are written -/

/-- One channel of a written color: up to three digits with white space around them, followed by
`stop`. -/
def spanChannel? (stop : Char) (t : Text) : Option (Text × Text) :=
  let (digits, rest) := spanAnyDigits (Text.trimStart t)
  if digits.isEmpty || 3 < digits.length then none
  else
    match Text.trimStart rest with
    | c :: after => if c = stop then some (digits, after) else none
    | [] => none

/-- The value of a written channel.  Digits of other scripts have no value and give zero. -/
def writtenChannel (digits : Text) : UInt8 :=
  ((Text.natValue? digits).map Rgb.channelOfNat).getD 0

/-- Read `rgb(r, g, b)`, in any case and with white space around the channels. -/
def Rgb.ofText? (t : Text) : Option Rgb := do
  let (name, rest) := (t.take 4, t.drop 4)
  guard (Text.lowerAscii name = "rgb(")
  let (red, rest) ← spanChannel? ',' rest
  let (green, rest) ← spanChannel? ',' rest
  let (blue, rest) ← spanChannel? ')' rest
  guard rest.isEmpty
  return ⟨writtenChannel red, writtenChannel green, writtenChannel blue⟩

/-! ## Quantities -/

/-- What an operator works on. -/
inductive Quantity where
  | number (value : Float)
  | length (value : Float) (unit : LengthUnit)
  | color (value : Rgb)
  /-- Any other text, with its quotes if it was written in quotes. -/
  | text (value : Text)

namespace Quantity

/-- The number a text is, if it is one. -/
def numberOf? (t : Text) : Option Float :=
  match spanNumeral? t with
  | some (numeral, []) => Decimal.read? numeral
  | _ => none

/-- The length a text is, if it is one: a numeral and a unit. -/
def lengthOf? (t : Text) : Option (Float × LengthUnit) := do
  let (numeral, rest) ← spanNumeral? t
  let value ← Decimal.read? numeral
  let unit ← LengthUnit.ofText? rest
  return (value, unit)

/-- The quantity that a text is. -/
def ofText (t : Text) : Quantity :=
  let t := Text.trim t
  match Rgb.ofText? t with
  | some rgb => .color rgb
  | none =>
    match numberOf? t with
    | some value => .number value
    | none =>
      match lengthOf? t with
      | some (value, unit) => .length value unit
      | none => .text t

/-- How a quantity is written. -/
def written : Quantity → Text
  | .number value => numberText value
  | .length value unit => numberText value ++ unit.text
  | .color value => value.text
  | .text value => value

end Quantity

/-- The text between double quotes, and whether it was in quotes at all. -/
def unquote (t : Text) : Text × Bool :=
  match t with
  | '"' :: rest =>
    match rest.getLast? with
    | some '"' => (rest.dropLast, true)
    | _ => (t, false)
  | _ => (t, false)

end Offside
