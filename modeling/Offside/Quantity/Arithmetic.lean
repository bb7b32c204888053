import Offside.Quantity.Basic
import Offside.Text.Quoted

/-!
# Arithmetic on quantities

The left operand decides what an operation means.

* Numbers are rounded to two places.  A number that meets a length or a color is taken for one, and
  a number that meets a text is taken for its text.
* Lengths compute when the units agree or the right side has none.  If exactly one side is a
  percentage, addition and subtraction change the left side by that part of itself.  Any other
  mixture of units cannot be computed, and the result is the operation as it was written.
* Colors compute channel by channel; a number or length on the right goes into all three channels.
* Texts are glued together by addition; subtraction takes the first occurrence of the right side out
  of the left; they cannot be multiplied or divided.
-/

namespace Offside

/-- The four operations. -/
inductive Operator where
  | add | sub | mul | div
  deriving Repr, DecidableEq

namespace Operator

/-- All operations, in the order in which an expression is taken apart. -/
def all : List Operator := [add, sub, mul, div]

/-- The sign of an operation. -/
def symbol : Operator → Char
  | add => '+'
  | sub => '-'
  | mul => '*'
  | div => '/'

/-- The name of an operation. -/
def name : Operator → Text
  | add => "addition"
  | sub => "subtraction"
  | mul => "multiplication"
  | div => "division"

/-- The operation of a sign. -/
def ofSymbol? (c : Char) : Option Operator := all.find? fun op => op.symbol == c

end Operator

/-- Whether a character is the sign of an operation. -/
def isOperator (c : Char) : Bool := c == '+' || c == '-' || c == '*' || c == '/'

/-- Operands that an operation is not defined for. -/
inductive Operands where
  | texts
  | colorAndText (right : Text)
  deriving Repr, DecidableEq

namespace Operands

/-- How the operands are called in a message. -/
def text : Operands → Text
  | texts => "string"
  | colorAndText right => "color and string " ++ Text.quoted right

end Operands

/-- Why an expression has no value. -/
inductive CalculationError where
  | unsupported (op : Operator) (operands : Operands)
  | divisionByZero (expression : Text)
  | unbalanced (expression : Text)
  deriving Repr, DecidableEq

namespace CalculationError

/-- The text of the error. -/
def message : CalculationError → Text
  | unsupported op operands => op.name ++ " is not supported for " ++ operands.text ++ " operands"
  | divisionByZero expression => "division by zero in `" ++ expression ++ "`"
  | unbalanced expression => "unbalanced parenthesis in `" ++ expression ++ "`"

end CalculationError

namespace Quantity

/-- Compute with two numbers. -/
def compute (a : Float) (op : Operator) (b : Float) : Except CalculationError Float :=
  match op with
  | .add => .ok (a + b)
  | .sub => .ok (a - b)
  | .mul => .ok (a * b)
  | .div =>
    if b == 0 then .error (.divisionByZero (numberText a ++ " / " ++ numberText b))
    else .ok (a / b)

/-- Round to two places. -/
def roundCents (x : Float) : Float := Decimal.roundWhole (x * 100) / 100

/-- A mixture of units that is left as it was written. -/
def unresolved (a : Float) (unit : LengthUnit) (op : Operator) (right : Quantity) : Quantity :=
  .text (numberText a ++ unit.text ++ " " ++ [op.symbol] ++ " " ++ right.written)

/-- Change `a` by `b` percent of itself. -/
def changeByPercent (a : Float) (op : Operator) (b : Float) : Option Float :=
  match op with
  | .add => some (a + a * b / 100)
  | .sub => some (a - a * b / 100)
  | _ => none

/-- Compute with two lengths. -/
def computeLengths (a : Float) (unit : LengthUnit) (op : Operator) (b : Float)
    (other : LengthUnit) : Except CalculationError Quantity :=
  if other = unit then (compute a op b).map fun value => .length value unit
  else
    let onePercentage := (unit == .percent) != (other == .percent)
    match if onePercentage then changeByPercent a op b else none with
    | some value => .ok (.length value unit)
    | none => .ok (unresolved a unit op (.length b other))

/-- Compute with a length on the left. -/
def applyLength (a : Float) (unit : LengthUnit) (op : Operator) (right : Quantity) :
    Except CalculationError Quantity :=
  match right with
  | .number b => computeLengths a unit op b unit
  | .length b other => computeLengths a unit op b other
  | other => .ok (unresolved a unit op other)

/-- Compute one channel. -/
def computeChannel (a : UInt8) (op : Operator) (b : Float) : Except CalculationError UInt8 :=
  (compute (Float.ofNat a.toNat) op b).map Rgb.channel

/-- Compute with a color on the left and a number for each channel on the right. -/
def computeColor (color : Rgb) (op : Operator) (red green blue : Float) :
    Except CalculationError Quantity := do
  let red ← computeChannel color.red op red
  let green ← computeChannel color.green op green
  let blue ← computeChannel color.blue op blue
  return .color ⟨red, green, blue⟩

/-- Compute with a color on the left. -/
def applyColor (color : Rgb) (op : Operator) (right : Quantity) :
    Except CalculationError Quantity :=
  match right with
  | .number b => computeColor color op b b b
  | .length b _ => computeColor color op b b b
  | .color other =>
    computeColor color op (Float.ofNat other.red.toNat) (Float.ofNat other.green.toNat)
      (Float.ofNat other.blue.toNat)
  | .text t => .error (.unsupported op (.colorAndText t))

/-- Put a text back into double quotes if it came out of them. -/
def requote (quoted : Bool) (t : Text) : Text := if quoted then "\"" ++ t ++ "\"" else t

/-- Compute with a text on the left. -/
def applyText (left : Text) (op : Operator) (right : Quantity) :
    Except CalculationError Quantity :=
  let (inner, quoted) := unquote left
  let (other, _) := unquote right.written
  match op with
  | .add => .ok (.text (requote quoted (inner ++ other)))
  | .sub => .ok (.text (requote quoted (Text.eraseFirst other inner)))
  | _ => .error (.unsupported op .texts)

/-- Apply an operation to two quantities. -/
def apply (left : Quantity) (op : Operator) (right : Quantity) :
    Except CalculationError Quantity :=
  match left, right with
  | .number a, .number b => (compute a op b).map fun value => .number (roundCents value)
  | .number a, .length b unit => applyLength a unit op (.length b unit)
  | .number a, .color other => applyColor (.gray (Rgb.channel a)) op (.color other)
  | .number a, .text t => applyText (numberText a) op (.text t)
  | .length a unit, right => applyLength a unit op right
  | .color rgb, right => applyColor rgb op right
  | .text t, right => applyText t op right

end Quantity

end Offside
