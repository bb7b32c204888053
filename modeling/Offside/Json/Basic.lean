import Offside.Decimal.Written
import Offside.Table
import Offside.Text.Quoted

/-!
# Data values

Templates are rendered with named values, functions take and return values, and values are read from
files.  They are the values of JSON: null, truth values, numbers, texts, lists and objects.

A number that is written without a fraction and fits in 64 bits is whole and stays exact; any other
is a double.  The fields of an object are kept in the order of their names, each name once, so that
an object has one written form.
-/

namespace Offside

/-- A number of a data value. -/
inductive JsonNumber where
  | whole (value : Int)
  | fraction (value : Float)

namespace JsonNumber

/-- How a number is written. -/
def text : JsonNumber → Text
  | whole value => Text.ofInt value
  | fraction value => Decimal.scientific value

/-- The number as a double. -/
def toFloat : JsonNumber → Float
  | whole value => if value < 0 then -Float.ofNat value.natAbs else Float.ofNat value.natAbs
  | fraction value => value

end JsonNumber

/-- A data value. -/
inductive Json where
  | null
  | bool (value : Bool)
  | number (value : JsonNumber)
  | string (value : Text)
  | array (items : List Json)
  | object (fields : List (Text × Json))

/-- Named values. -/
abbrev Fields := Table Json

namespace Json

/-- A whole number. -/
def ofNat (n : Nat) : Json := .number (.whole n)

/-- The text of a value that is a text. -/
def asText? : Json → Option Text
  | string value => some value
  | _ => none

/-- The natural number of a value that is one and fits in 64 bits. -/
def asNat? : Json → Option Nat
  | number (.whole (.ofNat n)) => if n < Text.wordLimit then some n else none
  | _ => none

/-- The fields of a value that is an object. -/
def asFields? : Json → Option Fields
  | object fields => some fields
  | _ => none

/-! ## The written form -/

/-- One character of a written text. -/
def escapeChar (c : Char) : Text :=
  if c == '"' then "\\\""
  else if c == '\\' then "\\\\"
  else if c == '\n' then "\\n"
  else if c == '\r' then "\\r"
  else if c == '\t' then "\\t"
  else if c == Char.ofNat 8 then "\\b"
  else if c == Char.ofNat 12 then "\\f"
  else if c.toNat < 16 then "\\u000" ++ Text.hexOfNat c.toNat
  else if c.toNat < 32 then "\\u00" ++ Text.hexOfNat c.toNat
  else [c]

/-- A text between double quotes, with escapes. -/
def quote (t : Text) : Text := "\"" ++ t.flatMap escapeChar ++ "\""

mutual

/-- The written form of a value, without any white space. -/
def text : Json → Text
  | null => "null"
  | bool true => "true"
  | bool false => "false"
  | number value => value.text
  | string value => quote value
  | array items => "[" ++ itemsText items ++ "]"
  | object fields => "\x7b" ++ fieldsText fields ++ "\x7d"

/-- The written form of the items of a list. -/
def itemsText : List Json → Text
  | [] => []
  | [item] => item.text
  | item :: rest => item.text ++ "," ++ itemsText rest

/-- The written form of the fields of an object. -/
def fieldsText : List (Text × Json) → Text
  | [] => []
  | [(name, value)] => quote name ++ ":" ++ value.text
  | (name, value) :: rest => quote name ++ ":" ++ value.text ++ "," ++ fieldsText rest

end

/-! ## The described form

Descriptions of a program's state name the kind of each value. -/

mutual

/-- A value with the name of its kind. -/
def described : Json → Text
  | null => "Null"
  | bool true => "Bool(true)"
  | bool false => "Bool(false)"
  | number value => "Number(" ++ value.text ++ ")"
  | string value => "String(" ++ Text.quoted value ++ ")"
  | array items => "Array [" ++ itemsDescribed items ++ "]"
  | object fields => "Object \x7b" ++ fieldsDescribed fields ++ "\x7d"

/-- The items of a list, described. -/
def itemsDescribed : List Json → Text
  | [] => []
  | [item] => item.described
  | item :: rest => item.described ++ ", " ++ itemsDescribed rest

/-- The fields of an object, described. -/
def fieldsDescribed : List (Text × Json) → Text
  | [] => []
  | [(name, value)] => Text.quoted name ++ ": " ++ value.described
  | (name, value) :: rest =>
    Text.quoted name ++ ": " ++ value.described ++ ", " ++ fieldsDescribed rest

end

end Json

end Offside
