import Offside.Json.Basic
import Offside.Text.Hex

/-!
# Reading data values

A reader for the written form of data values.  It works from left to right on the characters; each
step returns what is left.  Lists and objects nest at most 127 deep.
-/

namespace Offside

/-- Why a text is not the written form of a value. -/
inductive JsonError where
  | unexpectedEnd
  | unexpected (rest : Text)
  | invalidNumber
  | invalidString
  | tooDeep
  deriving Repr, DecidableEq

namespace JsonError

/-- The text of the error. -/
def message : JsonError → Text
  | unexpectedEnd => "the value ends too early"
  | unexpected rest => "unexpected text " ++ Text.quoted (rest.take 20)
  | invalidNumber => "invalid number"
  | invalidString => "invalid string"
  | tooDeep => "values are nested too deep"

end JsonError

namespace Json

/-- White space between the parts of a value. -/
def skipSpace (t : Text) : Text :=
  t.dropWhile fun c => c == ' ' || c == '\n' || c == '\t' || c == '\r'

/-! ## Numbers -/

/-- The largest number of 64 bits. -/
def largestWhole : Nat := Text.wordLimit - 1

/-- Whether a double is neither infinite nor undefined. -/
def isFinite (x : Float) : Bool :=
  match Decimal.decode x with
  | .finite .. => true
  | _ => false

/-- A whole number if it is one of 64 bits, or else a finite double. -/
def wholeNumber (negative : Bool) (digits : Text) : Option JsonNumber :=
  let n := Decimal.digitsValue digits
  let double := ((Decimal.read? (if negative then '-' :: digits else digits)).filter isFinite).map
    JsonNumber.fraction
  if negative then
    if n = 0 then double else if n ≤ 0x8000000000000000 then some (.whole (-(n : Int))) else double
  else if n ≤ largestWhole then some (.whole n) else double

/-- The characters of a number at the beginning of a text. -/
def spanNumber (t : Text) : Text × Text :=
  t.span fun c => c.isDigit || c == '+' || c == '-' || c == '.' || c == 'e' || c == 'E'

/-- Whether the digits before the point are written without a superfluous zero. -/
def plainWhole : Text → Bool
  | [] => false
  | ['0'] => true
  | '0' :: _ => false
  | _ => true

/-- The value of a written number. -/
def numberOf (t : Text) : Option JsonNumber := do
  let (negative, unsigned) :=
    match t with
    | '-' :: rest => (true, rest)
    | _ => (false, t)
  let (whole, rest) := Decimal.spanDigits unsigned
  guard (plainWhole whole)
  match rest with
  | [] => wholeNumber negative whole
  | '.' :: after =>
    guard !(Decimal.spanDigits after).1.isEmpty
    let value ← Decimal.read? t
    guard (isFinite value)
    return .fraction value
  | _ =>
    let value ← Decimal.read? t
    guard (isFinite value)
    return .fraction value

/-! ## Texts -/

/-- Four hexadecimal digits. -/
def hexUnit? : Text → Option (Nat × Text)
  | a :: b :: c :: d :: rest => do
    let a ← Text.hexDigit? a
    let b ← Text.hexDigit? b
    let c ← Text.hexDigit? c
    let d ← Text.hexDigit? d
    return (((a * 16 + b) * 16 + c) * 16 + d, rest)
  | _ => none

/-- A character written by one code unit, or by a pair of them. -/
def escapedUnit? (t : Text) : Option (Char × Text) := do
  let (high, rest) ← hexUnit? t
  if 0xd800 ≤ high && high < 0xdc00 then
    match rest with
    | '\\' :: 'u' :: rest =>
      let (low, rest) ← hexUnit? rest
      guard (0xdc00 ≤ low && low < 0xe000)
      return (Char.ofNat (0x10000 + (high - 0xd800) * 0x400 + (low - 0xdc00)), rest)
    | _ => none
  else if 0xdc00 ≤ high && high < 0xe000 then none
  else return (Char.ofNat high, rest)

/-- The character after a backslash. -/
def escaped? : Text → Option (Char × Text)
  | '"' :: rest => some ('"', rest)
  | '\\' :: rest => some ('\\', rest)
  | '/' :: rest => some ('/', rest)
  | 'b' :: rest => some (Char.ofNat 8, rest)
  | 'f' :: rest => some (Char.ofNat 12, rest)
  | 'n' :: rest => some ('\n', rest)
  | 'r' :: rest => some ('\r', rest)
  | 't' :: rest => some ('\t', rest)
  | 'u' :: rest => escapedUnit? rest
  | _ => none

/-- The rest of a text up to its closing quote; `steps` bounds its length. -/
def readString : Nat → Text → Text → Except JsonError (Text × Text)
  | 0, _, _ => .error .unexpectedEnd
  | steps + 1, read, t =>
    match t with
    | [] => .error .unexpectedEnd
    | '"' :: rest => .ok (read.reverse, rest)
    | '\\' :: rest =>
      match escaped? rest with
      | some (c, rest) => readString steps (c :: read) rest
      | none => .error .invalidString
    | c :: rest =>
      if c.toNat < 32 then .error .invalidString else readString steps (c :: read) rest

/-! ## Values -/

mutual

/-- A value, nested at most `depth` deep.  `steps` bounds the length of the text. -/
def readValue : Nat → Nat → Text → Except JsonError (Json × Text)
  | 0, _, _ => .error .unexpectedEnd
  | steps + 1, depth, t =>
    match skipSpace t with
    | [] => .error .unexpectedEnd
    | 'n' :: 'u' :: 'l' :: 'l' :: rest => .ok (.null, rest)
    | 't' :: 'r' :: 'u' :: 'e' :: rest => .ok (.bool true, rest)
    | 'f' :: 'a' :: 'l' :: 's' :: 'e' :: rest => .ok (.bool false, rest)
    | '"' :: rest => do
      let (value, rest) ← readString (rest.length + 1) [] rest
      return (.string value, rest)
    | '[' :: rest =>
      match depth with
      | 0 => .error .tooDeep
      | depth + 1 =>
        match skipSpace rest with
        | ']' :: rest => .ok (.array [], rest)
        | rest => do
          let (items, rest) ← readItems steps depth rest
          return (.array items, rest)
    | '\x7b' :: rest =>
      match depth with
      | 0 => .error .tooDeep
      | depth + 1 =>
        match skipSpace rest with
        | '\x7d' :: rest => .ok (.object [], rest)
        | rest => do
          let (fields, rest) ← readFields steps depth rest
          return (.object (Table.ofList fields), rest)
    | t =>
      let (written, rest) := spanNumber t
      if written.isEmpty then .error (.unexpected t)
      else
        match numberOf written with
        | some value => .ok (.number value, rest)
        | none => .error .invalidNumber

/-- The items of a list, up to its closing bracket. -/
def readItems : Nat → Nat → Text → Except JsonError (List Json × Text)
  | 0, _, _ => .error .unexpectedEnd
  | steps + 1, depth, t => do
    let (item, rest) ← readValue steps depth t
    match skipSpace rest with
    | ',' :: rest =>
      let (items, rest) ← readItems steps depth rest
      return (item :: items, rest)
    | ']' :: rest => return ([item], rest)
    | [] => .error .unexpectedEnd
    | rest => .error (.unexpected rest)

/-- The fields of an object, up to its closing brace. -/
def readFields : Nat → Nat → Text → Except JsonError (List (Text × Json) × Text)
  | 0, _, _ => .error .unexpectedEnd
  | steps + 1, depth, t =>
    match skipSpace t with
    | '"' :: rest => do
      let (name, rest) ← readString (rest.length + 1) [] rest
      match skipSpace rest with
      | ':' :: rest =>
        let (value, rest) ← readValue steps depth rest
        match skipSpace rest with
        | ',' :: rest =>
          let (fields, rest) ← readFields steps depth rest
          return ((name, value) :: fields, rest)
        | '\x7d' :: rest => return ([(name, value)], rest)
        | [] => .error .unexpectedEnd
        | rest => .error (.unexpected rest)
      | [] => .error .unexpectedEnd
      | rest => .error (.unexpected rest)
    | [] => .error .unexpectedEnd
    | rest => .error (.unexpected rest)

end

/-- How deep lists and objects may nest. -/
def depthLimit : Nat := 127

/-- Read the written form of a value; nothing but white space may follow it. -/
def read (t : Text) : Except JsonError Json := do
  let (value, rest) ← readValue (2 * t.length + 2) depthLimit t
  match skipSpace rest with
  | [] => return value
  | rest => .error (.unexpected rest)

end Json

end Offside
