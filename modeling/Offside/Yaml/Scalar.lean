import Offside.Json.Reader

/-!
# Scalars of a YAML document

A scalar in quotes is a text.  A plain scalar is null, a truth value or a number if it is written
like one, and a text otherwise.  A number that is not finite has no data value and counts as null.
-/

namespace Offside.Yaml

/-! ## Plain scalars -/

/-- The ways to write nothing. -/
def isNull (t : Text) : Bool := ["", "~", "null", "Null", "NULL"].any fun word => t == word.toList

/-- The truth value that is written. -/
def flag? (t : Text) : Option Bool :=
  if ["true", "True", "TRUE"].any fun word => t == word.toList then some true
  else if ["false", "False", "FALSE"].any fun word => t == word.toList then some false
  else none

/-- Whether a text has the digits of a number after a zero; such a text is not a number. -/
def isPadded : Text → Bool
  | '0' :: c :: rest => (c :: rest).all Char.isDigit
  | _ => false

/-- A whole number without a sign. -/
def natural? : Text → Option Nat
  | '0' :: 'x' :: rest => Text.valueInBase? 16 rest
  | '0' :: 'o' :: rest => Text.valueInBase? 8 rest
  | '0' :: 'b' :: rest => Text.valueInBase? 2 rest
  | t => if isPadded t then none else Text.valueInBase? 10 t

/-- A text without its sign, and whether it is negative. -/
def unsigned : Text → Text × Bool
  | '-' :: rest => (rest, true)
  | '+' :: rest => (rest, false)
  | t => (t, false)

/-- A whole number. -/
def whole? (t : Text) : Option Int :=
  let (digits, isNegative) := unsigned t
  (natural? digits).map fun n => if isNegative then -n else n

/-- Whether a text is the name of a number that is not finite. -/
def isUnbounded (t : Text) : Bool :=
  ["inf", "Inf", "INF"].any (fun word => (unsigned t).1 == '.' :: word.toList) ||
    ["nan", "NaN", "NAN"].any fun word => t == '.' :: word.toList

/-- A number with a fraction or an exponent. -/
def fraction? (t : Text) : Option Float :=
  let digits := (unsigned t).1
  if isPadded digits || !(digits.head?.any fun c => c.isDigit || c == '.') then none
  else (Decimal.read? t).filter Json.isFinite

/-- The data value of a plain scalar. -/
def plainValue (t : Text) : Json :=
  if isNull t || isUnbounded t then .null
  else
    match flag? t, whole? t, fraction? t with
    | some flag, _, _ => .bool flag
    | _, some n, _ => .number (.whole n)
    | _, _, some x => .number (.fraction x)
    | _, _, _ => .string t

/-- Whether a text can be a plain scalar by the way it begins: a mark for something else has to be
followed by more. -/
def startsPlain : Text → Bool
  | [] => true
  | c :: rest =>
    if c == '-' || c == '?' || c == ':' then rest.head?.any fun next => next != ' ' && next != '\t'
    else !("\t,[]\x7b\x7d#&*!|>'\"%@\x60".toList.contains c)

/-! ## Scalars in quotes -/

/-- The character after a backslash. -/
def escape? : Text → Option (Char × Text)
  | '0' :: rest => some (Char.ofNat 0, rest)
  | 'a' :: rest => some (Char.ofNat 7, rest)
  | 'b' :: rest => some (Char.ofNat 8, rest)
  | 't' :: rest => some ('\t', rest)
  | '\t' :: rest => some ('\t', rest)
  | 'n' :: rest => some ('\n', rest)
  | 'v' :: rest => some (Char.ofNat 11, rest)
  | 'f' :: rest => some (Char.ofNat 12, rest)
  | 'r' :: rest => some ('\r', rest)
  | 'e' :: rest => some (Char.ofNat 27, rest)
  | ' ' :: rest => some (' ', rest)
  | '"' :: rest => some ('"', rest)
  | '/' :: rest => some ('/', rest)
  | '\\' :: rest => some ('\\', rest)
  | 'N' :: rest => some (Char.ofNat 0x85, rest)
  | '_' :: rest => some (Char.ofNat 0xa0, rest)
  | 'L' :: rest => some (Char.ofNat 0x2028, rest)
  | 'P' :: rest => some (Char.ofNat 0x2029, rest)
  | 'x' :: rest => Text.codePoint? 2 rest
  | 'u' :: rest => Text.codePoint? 4 rest
  | 'U' :: rest => Text.codePoint? 8 rest
  | _ => none

/-- A text in double quotes, after the first; `read` is what was read, the last character first.
`steps` bounds the number of characters. -/
def doubleQuoted? (read : Text) : Nat → Text → Option (Text × Text)
  | 0, _ => none
  | _, [] => none
  | steps + 1, c :: rest =>
    if c == '"' then some (read.reverse, rest)
    else if c == '\\' then
      match escape? rest with
      | some (c, rest) => doubleQuoted? (c :: read) steps rest
      | none => none
    else doubleQuoted? (c :: read) steps rest

/-- A text in single quotes, after the first; a quote inside it is written twice. -/
def singleQuoted? : Text → Option (Text × Text)
  | [] => none
  | '\'' :: '\'' :: rest => (singleQuoted? rest).map fun (t, rest) => ('\'' :: t, rest)
  | '\'' :: rest => some ([], rest)
  | c :: rest => (singleQuoted? rest).map fun (t, rest) => (c :: t, rest)

/-- A text in quotes. -/
def quoted? : Text → Option (Text × Text)
  | '"' :: rest => doubleQuoted? [] (rest.length + 1) rest
  | '\'' :: rest => singleQuoted? rest
  | _ => none

end Offside.Yaml
