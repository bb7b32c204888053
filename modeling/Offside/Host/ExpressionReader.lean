import Offside.Host.Expression

/-!
# Reading expressions

Readers take the beginning of a text and give what they read with the rest, or nothing.  White space
is passed over between the parts of an expression, but not inside of names, paths and numbers.

From loosest to tightest: `or`, `and`, `not`, comparisons, sums, products.  Pieces joined by `~` and
texts stand on their own on either side of a comparison, and take no part in sums.
-/

namespace Offside.Expression

/-- A reader of expressions. -/
abbrev ExpressionReader := Text → Option (Expression × Text)

/-- Drop the white space at the beginning. -/
def skipSpace (t : Text) : Text :=
  t.dropWhile fun c => c == ' ' || c == '\t' || c == '\r' || c == '\n'

/-- What follows a symbol. -/
def symbol? (written t : Text) : Option Text := Text.dropPrefix? written (skipSpace t)

/-- What follows a word that has white space after it. -/
def operatorWord? (written t : Text) : Option Text :=
  match symbol? written t with
  | some (c :: rest) => if skipSpace [c] == [] then some rest else none
  | _ => none

/-- Read as often as possible.  `steps` bounds how often. -/
def repeatedly {α : Type} (read : Text → Option (α × Text)) : Nat → Text → List α × Text
  | 0, t => ([], t)
  | steps + 1, t =>
    match read t with
    | none => ([], t)
    | some (first, rest) =>
      let (others, rest) := repeatedly read steps rest
      (first :: others, rest)

/-! ## Names and literals -/

/-- Whether a character can be part of a name. -/
def isNameChar (c : Char) : Bool := c.isAlphanum || c == '_'

/-- A name: it does not begin with a digit. -/
def name? (t : Text) : Option (Text × Text) :=
  let t := skipSpace t
  let name := t.takeWhile isNameChar
  match name with
  | first :: _ => if first.isDigit then none else some (name, t.dropWhile isNameChar)
  | [] => none

/-- A text between quotes of any kind. -/
def quoted? (t : Text) : Option (Text × Text) :=
  match skipSpace t with
  | mark :: rest =>
    if mark == '"' || mark == '\'' || mark == '\x60' then Text.splitOnce? mark rest else none
  | [] => none

/-- The digits of a whole number: a zero has no digits after it. -/
def wholeDigits? (t : Text) : Option (Text × Text) :=
  match t with
  | '0' :: rest => some (['0'], rest)
  | _ =>
    let digits := t.takeWhile Char.isDigit
    if digits.isEmpty then none else some (digits, t.dropWhile Char.isDigit)

/-- A number. -/
def number? (t : Text) : Option (Json × Text) :=
  let t := skipSpace t
  let (sign, unsigned) : Text × Text :=
    match t with
    | '-' :: rest => ("-", rest)
    | _ => ([], t)
  match wholeDigits? unsigned with
  | none => none
  | some (digits, rest) =>
    let whole : Int := Decimal.digitsValue digits
    let value := if sign.isEmpty then whole else -whole
    let plain : Option (Json × Text) := some (.number (.whole value), rest)
    match rest with
    | '.' :: after =>
      let places := after.takeWhile Char.isDigit
      if places.isEmpty then plain
      else
        (Decimal.read? (sign ++ digits ++ "." ++ places)).map fun value =>
          (.number (.fraction value), after.dropWhile Char.isDigit)
    | _ => plain

/-- A truth value. -/
def truth? (t : Text) : Option (Json × Text) :=
  let word (written : Text) (value : Bool) : Option (Json × Text) :=
    (symbol? written t).map fun rest => (.bool value, rest)
  word "true" true <|> word "false" false <|> word "True" true <|> word "False" false

/-- A further key of a path: a name after a dot, or a text or a number in brackets. -/
def key? (t : Text) : Option (Text × Text) :=
  match t with
  | '.' :: rest =>
    let key := rest.takeWhile isNameChar
    if key.isEmpty then none else some (key, rest.dropWhile isNameChar)
  | '[' :: rest =>
    match quoted? rest <|> wholeDigits? (skipSpace rest) with
    | some (key, rest) => (symbol? "]" rest).map fun rest => (key, rest)
    | none => none
  | _ => none

/-- A path: a name and further keys. -/
def path? (t : Text) : Option (Expression × Text) :=
  (name? t).map fun (name, rest) =>
    let (keys, rest) := repeatedly key? rest.length rest
    (path name keys, rest)

/-! ## Calls and operators

The readers below take the reader of a whole expression, for what stands in parentheses. -/

/-- A named argument. -/
def argument? (whole : ExpressionReader) (t : Text) : Option ((Text × Expression) × Text) := do
  let (name, rest) ← name? t
  let rest ← symbol? "=" rest
  let (value, rest) ← whole rest
  return ((name, value), rest)

/-- A further argument after a comma. -/
def nextArgument? (whole : ExpressionReader) (t : Text) :
    Option ((Text × Expression) × Text) :=
  (symbol? "," t).bind (argument? whole)

/-- A call of a function. -/
def call? (whole : ExpressionReader) (t : Text) : Option (Expression × Text) := do
  let (name, rest) ← name? t
  let rest ← symbol? "(" rest
  match argument? whole rest with
  | none => return (call name [], ← symbol? ")" rest)
  | some (first, rest) =>
    let (others, rest) := repeatedly (nextArgument? whole) rest.length rest
    let rest := (symbol? "," rest).getD rest
    return (call name (first :: others), ← symbol? ")" rest)

/-- A literal text. -/
def literalText? (t : Text) : Option (Expression × Text) :=
  (quoted? t).map fun (value, rest) => (literal (.string value), rest)

/-- A literal number. -/
def literalNumber? (t : Text) : Option (Expression × Text) :=
  (number? t).map fun (value, rest) => (literal value, rest)

/-- A literal truth value. -/
def literalTruth? (t : Text) : Option (Expression × Text) :=
  (truth? t).map fun (value, rest) => (literal value, rest)

/-- An expression in parentheses. -/
def group? (whole : ExpressionReader) (t : Text) : Option (Expression × Text) := do
  let rest ← symbol? "(" t
  let (inner, rest) ← whole rest
  return (inner, ← symbol? ")" rest)

/-- A piece of a joined text. -/
def piece? (whole : ExpressionReader) (t : Text) : Option (Expression × Text) :=
  call? whole t <|> literalNumber? t <|> literalText? t <|> path? t

/-- A further piece after `~`. -/
def nextPiece? (whole : ExpressionReader) (t : Text) : Option (Expression × Text) :=
  (symbol? "~" t).bind (piece? whole)

/-- Two or more pieces joined by `~`. -/
def concat? (whole : ExpressionReader) (t : Text) : Option (Expression × Text) := do
  let (first, rest) ← piece? whole t
  let (others, rest) := repeatedly (nextPiece? whole) rest.length rest
  if others.isEmpty then none else return (concat (first :: others), rest)

/-- What sums and products are made of. -/
def atom? (whole : ExpressionReader) (t : Text) : Option (Expression × Text) :=
  group? whole t <|> literalTruth? t <|> call? whole t <|> path? t <|> literalNumber? t

/-- An operator and its right operand. -/
def operation? (ops : List (String × ArithmeticOp)) (operand : ExpressionReader)
    (t : Text) : Option ((ArithmeticOp × Expression) × Text) :=
  ops.findSome? fun (written, op) => do
    let rest ← symbol? written.toList t
    let (right, rest) ← operand rest
    return ((op, right), rest)

/-- Operands with operators of one strength between them, grouped from the left. -/
def chain? (ops : List (String × ArithmeticOp)) (operand : ExpressionReader) (t : Text) :
    Option (Expression × Text) := do
  let (first, rest) ← operand t
  let (others, rest) := repeatedly (operation? ops operand) rest.length rest
  return (others.foldl (fun left (op, right) => arithmetic op left right) first, rest)

/-- A sum of products. -/
def sum? (whole : ExpressionReader) (t : Text) : Option (Expression × Text) :=
  chain? [("+", .plus), ("-", .minus)] (chain? [("*", .times)] (atom? whole)) t

/-- One side of a comparison. -/
def side? (whole : ExpressionReader) (t : Text) : Option (Expression × Text) :=
  concat? whole t <|> literalText? t <|> sum? whole t

/-- The comparisons, as they are written. -/
def comparisons : List (String × Comparison) :=
  [("==", .equal), ("!=", .different), (">=", .atLeast), ("<=", .atMost), (">", .greater),
    ("<", .less)]

/-- A comparison, or one side of it. -/
def comparison? (whole : ExpressionReader) (t : Text) : Option (Expression × Text) := do
  let (left, rest) ← side? whole t
  let compared : Option (Expression × Text) :=
    comparisons.findSome? fun (written, op) => do
      let rest ← symbol? written.toList rest
      let (right, rest) ← side? whole rest
      return (compare op left right, rest)
  return compared.getD (left, rest)

/-- A comparison that may be negated. -/
def test? (whole : ExpressionReader) (t : Text) : Option (Expression × Text) :=
  match operatorWord? "not" t with
  | some rest => (comparison? whole rest).map fun (inner, rest) => (negated inner, rest)
  | none => comparison? whole t

/-- Tests that all have to hold. -/
def allOf? (whole : ExpressionReader) (t : Text) : Option (Expression × Text) := do
  let (first, rest) ← test? whole t
  let next (t : Text) : Option (Expression × Text) := (operatorWord? "and" t).bind (test? whole)
  let (others, rest) := repeatedly next rest.length rest
  return (others.foldl both first, rest)

/-- Tests of which one has to hold. -/
def anyOf? (whole : ExpressionReader) (t : Text) : Option (Expression × Text) := do
  let (first, rest) ← allOf? whole t
  let next (t : Text) : Option (Expression × Text) := (operatorWord? "or" t).bind (allOf? whole)
  let (others, rest) := repeatedly next rest.length rest
  return (others.foldl either first, rest)

/-- An expression whose parentheses nest at most `levels` deep. -/
def readWithin : Nat → Text → Option (Expression × Text)
  | 0, _ => none
  | levels + 1, t => anyOf? (readWithin levels) t

/-- The expression at the beginning of a text. -/
def read? (t : Text) : Option (Expression × Text) := readWithin (t.count '(' + 1) t

end Offside.Expression
