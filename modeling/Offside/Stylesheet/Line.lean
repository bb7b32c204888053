import Offside.Text.Blank

/-!
# The lines of a stylesheet

Every line is of exactly one kind.  The kinds are tried in this order, and the first that fits
counts, so `:margin = 1px` is computed and never taken literally:

* `!name = value` defines a constant; a quote at either end of the value is dropped.
* `:name = expression` is an attribute whose value is computed.
* `:name value` is an attribute whose value is taken literally.
* `:name` opens a group of attributes whose names begin with that name.
* `// text` is a comment.
* Anything else is a rule: a selector, or several with commas between them.
-/

namespace Offside

/-- What a line of a stylesheet is. -/
inductive StyleLine where
  | blank
  | constant (name value : Text)
  | computed (name expression : Text)
  | literal (name value : Text)
  | group (name : Text)
  | comment
  | rule (selector : Text)
  deriving Repr, DecidableEq

namespace StyleLine

/-- Whether a character can be part of a name that is followed by an equals sign. -/
def isNameBeforeEquals (c : Char) : Bool := !Text.isBlank c && c != '='

/-- A value is a text on one line that is not empty. -/
def isValue (t : Text) : Bool := !t.isEmpty && !t.contains '\n'

/-- Split `name = value`, with or without white space around the equals sign. -/
def splitAssignment? (t : Text) : Option (Text × Text) :=
  let (name, rest) := t.span isNameBeforeEquals
  match Text.trimStart rest with
  | '=' :: after =>
    let value := Text.trimStart after
    if !name.isEmpty && isValue value then some (name, value) else none
  | _ => none

/-- Split a name from the value that follows it after white space. -/
def splitLiteral? (t : Text) : Option (Text × Text) :=
  let (name, rest) := t.span fun c => !Text.isBlank c
  let value := Text.trimStart rest
  if !name.isEmpty && isValue value then some (name, value) else none

/-- A name without white space. -/
def isName (t : Text) : Bool := !t.isEmpty && t.all fun c => !Text.isBlank c

/-- Drop one double quote at the beginning and one at the end. -/
def dropQuotes (t : Text) : Text :=
  let t := (Text.dropPrefix? "\"" t).getD t
  (Text.dropSuffix? "\"" t).getD t

/-- The constant that a line defines. -/
def constant? : Text → Option StyleLine
  | '!' :: t => (splitAssignment? t).map fun (name, value) => .constant name (dropQuotes value)
  | _ => none

/-- The attribute or group that a line stands for. -/
def attribute? : Text → Option StyleLine
  | ':' :: t =>
    match splitAssignment? t with
    | some (name, expression) => some (.computed name expression)
    | none =>
      match splitLiteral? t with
      | some (name, value) => some (.literal name value)
      | none => if isName t then some (.group t) else none
  | _ => none

/-- What a line is. -/
def ofText (line : Text) : StyleLine :=
  let t := Text.trim line
  if t.isEmpty then .blank
  else
    match (constant? t).or (attribute? t) with
    | some kind => kind
    | none => if Text.startsWith "//" t then .comment else .rule t

end StyleLine

end Offside
