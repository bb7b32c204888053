import Offside.Json.Reader
import Offside.Text.Blank
import Offside.Text.Utf8
import Offside.Toml.Table

/-!
# Reading TOML

A document is a sequence of lines: `key = value`, headers of tables in brackets, comments and blank
lines.  Readers take the beginning of a text and give what they read with the rest, or nothing.
-/

namespace Offside.Toml

/-! ## White space and line ends -/

/-- Drop spaces and tabs. -/
def skipBlank (t : Text) : Text := t.dropWhile fun c => c == ' ' || c == '\t'

/-- Whether a character can stand in a comment, or in a text on one line. -/
def isLineChar (c : Char) : Bool := (0x20 ≤ c.toNat && c.toNat != 0x7f) || c == '\t'

/-- Drop a comment. -/
def skipComment (t : Text) : Text :=
  match t with
  | '#' :: rest => rest.dropWhile isLineChar
  | _ => t

/-- What follows the end of a line, before which only a comment may stand. -/
def lineEnd? (t : Text) : Option Text :=
  match skipComment (skipBlank t) with
  | [] => some []
  | '\n' :: rest => some rest
  | '\r' :: '\n' :: rest => some rest
  | _ => none

/-- Drop white space, comments and line ends; `steps` bounds the number of lines. -/
def skipLines : Nat → Text → Text
  | 0, t => t
  | steps + 1, t =>
    match lineEnd? t with
    | some [] => []
    | some rest => skipLines steps rest
    | none => skipBlank t

/-- What follows a symbol; lines may end before it. -/
def symbol? (c : Char) (t : Text) : Option Text :=
  match skipLines (t.length + 1) t with
  | first :: rest => if first == c then some rest else none
  | [] => none

/-! ## Texts -/

/-- The character after a backslash. -/
def escape? (t : Text) : Option (Char × Text) :=
  match t with
  | 'b' :: rest => some (Char.ofNat 8, rest)
  | 't' :: rest => some ('\t', rest)
  | 'n' :: rest => some ('\n', rest)
  | 'f' :: rest => some (Char.ofNat 12, rest)
  | 'r' :: rest => some ('\r', rest)
  | '"' :: rest => some ('"', rest)
  | '\\' :: rest => some ('\\', rest)
  | 'u' :: rest => Text.codePoint? 4 rest
  | 'U' :: rest => Text.codePoint? 8 rest
  | _ => none

/-- A text in double quotes, after the first; `read` is what was read, the last character first.
`steps` bounds the number of steps. -/
def basicText? (read : Text) : Nat → Text → Option (Text × Text)
  | 0, _ => none
  | _, [] => none
  | steps + 1, c :: rest =>
    if c == '"' then some (read.reverse, rest)
    else if c == '\\' then
      match escape? rest with
      | some (c, rest) => basicText? (c :: read) steps rest
      | none => none
    else if isLineChar c then basicText? (c :: read) steps rest
    else none

/-- A text in single quotes, after the first. -/
def literalText? (t : Text) : Option (Text × Text) :=
  (Text.splitOnce? '\'' t).filter fun (inner, _) => inner.all isLineChar

/-- A text over several lines, after its three quotes. -/
def longText? (mark : Char) (t : Text) : Option (Text × Text) :=
  let start :=
    match t with
    | '\n' :: rest => rest
    | '\r' :: '\n' :: rest => rest
    | _ => t
  let rec go (read : Text) : Nat → Text → Option (Text × Text)
    | 0, _ => none
    | _, [] => none
    | steps + 1, c :: rest =>
      match Text.dropPrefix? [mark, mark, mark] (c :: rest) with
      | some after => some (read.reverse, after)
      | none =>
        if c == '\\' && mark == '"' then
          match lineEnd? rest with
          | some after => go read steps (after.dropWhile Text.isBlank)
          | none =>
            match escape? rest with
            | some (c, rest) => go (c :: read) steps rest
            | none => none
        else go (c :: read) steps rest
  go [] (start.length + 1) start

/-- A text in quotes. -/
def text? (t : Text) : Option (Text × Text) :=
  match t with
  | '"' :: '"' :: '"' :: rest => longText? '"' rest
  | '"' :: rest => basicText? [] (rest.length + 1) rest
  | '\'' :: '\'' :: '\'' :: rest => longText? '\'' rest
  | '\'' :: rest => literalText? rest
  | _ => none

/-! ## Keys -/

/-- Whether a character can stand in a key without quotes. -/
def isKeyChar (c : Char) : Bool := c.isAlphanum || c == '_' || c == '-'

/-- One name of a key. -/
def name? (t : Text) : Option (Text × Text) :=
  match t with
  | '"' :: rest => basicText? [] (rest.length + 1) rest
  | '\'' :: rest => literalText? rest
  | _ =>
    let name := t.takeWhile isKeyChar
    if name.isEmpty then none else some (name, t.dropWhile isKeyChar)

/-- A dotted key; `steps` bounds the number of names. -/
def keyWithin : Nat → Text → Option (List Text × Text)
  | 0, _ => none
  | steps + 1, t => do
    let (name, rest) ← name? (skipBlank t)
    match skipBlank rest with
    | '.' :: rest => do
      let (names, rest) ← keyWithin steps rest
      return (name :: names, rest)
    | rest => return ([name], rest)

/-- A dotted key. -/
def key? (t : Text) : Option (List Text × Text) := keyWithin (t.length + 1) t

/-! ## Values -/

/-- Digits with single underscores between them, without the underscores. -/
def digits? (isPart : Char → Bool) (t : Text) : Option Text :=
  let pieces := Text.splitOn '_' t
  if pieces.all fun piece => !piece.isEmpty && piece.all isPart then some pieces.flatten else none

/-- A number written in a base. -/
def inBase? (base : Nat) (t : Text) : Option Nat :=
  (digits? (fun c => (Text.hexDigit? c).isSome) t).bind (Text.valueInBase? base)

/-- A whole number in tens, without a sign. -/
def natural? (t : Text) : Option Nat :=
  match t with
  | ['0'] => some 0
  | '0' :: _ => none
  | _ => inBase? 10 t

/-- A whole number.  One with a sign is written in tens. -/
def whole? (t : Text) : Option Int :=
  match t with
  | '0' :: 'x' :: rest => (inBase? 16 rest).map Int.ofNat
  | '0' :: 'o' :: rest => (inBase? 8 rest).map Int.ofNat
  | '0' :: 'b' :: rest => (inBase? 2 rest).map Int.ofNat
  | '-' :: rest => (natural? rest).map fun n => -(n : Int)
  | '+' :: rest => (natural? rest).map Int.ofNat
  | _ => (natural? t).map Int.ofNat

/-- A number with a fraction or an exponent. -/
def fraction? (t : Text) : Option Float :=
  let isPart (c : Char) : Bool := c.isDigit || ".eE+-".toList.contains c
  let isPlain := match t with
    | '0' :: c :: _ => !c.isDigit
    | c :: _ => c.isDigit
    | [] => false
  let pointed := match Text.splitOnce? '.' t with
    | some (_, c :: _) => c.isDigit
    | some (_, []) => false
    | none => true
  if t == "inf" || t == "nan" then Decimal.read? t
  else if isPlain && pointed && t.getLast?.any Char.isDigit then
    (digits? isPart t).bind Decimal.read?
  else none

/-- A number, or a truth value. -/
def scalar? (t : Text) : Option Json :=
  let (isNegative, unsigned) : Bool × Text :=
    match t with
    | '-' :: rest => (true, rest)
    | '+' :: rest => (false, rest)
    | _ => (false, t)
  if t == "true" then some (.bool true)
  else if t == "false" then some (.bool false)
  else
    match whole? t with
    | some value =>
      if -0x8000000000000000 ≤ value && value < 0x8000000000000000 then
        some (.number (.whole value))
      else none
    | none =>
      (fraction? unsigned).map fun x => .number (.fraction (if isNegative then -x else x))

/-- Whether a character can stand in a value without quotes. -/
def isScalarChar (c : Char) : Bool := isKeyChar c || c == '.' || c == '+' || c == ':'

/-- The items of a list after its bracket, given the reader of a value.  `steps` bounds their
number. -/
def items? (value : Text → Option (Json × Text)) : Nat → Text → Option (List Json × Text)
  | 0, _ => none
  | steps + 1, t =>
    match symbol? ']' t with
    | some rest => some ([], rest)
    | none => do
      let (item, rest) ← value (skipLines (t.length + 1) t)
      match symbol? ',' rest with
      | some rest => do
        let (items, rest) ← items? value steps rest
        return (item :: items, rest)
      | none => return ([item], ← symbol? ']' rest)

/-- The keys of a table on one line after its brace, given the reader of a value.  `steps` bounds
their number. -/
def pairs? (value : Text → Option (Json × Text)) (entries : Entries) :
    Nat → Text → Option (Entries × Text)
  | 0, _ => none
  | steps + 1, t => do
    let (key, rest) ← key? t
    let rest ← (match rest with
      | '=' :: rest => some rest
      | _ => none)
    let (json, rest) ← value (skipBlank rest)
    let entries ← entries.addKey json key
    match skipBlank rest with
    | ',' :: rest => pairs? value entries steps rest
    | '\x7d' :: rest => return (entries, rest)
    | _ => none

/-- A value whose lists and tables nest at most `levels` deep. -/
def valueWithin : Nat → Text → Option (Json × Text)
  | 0, _ => none
  | levels + 1, t =>
    match t with
    | '[' :: rest => do
      let (items, rest) ← items? (valueWithin levels) (rest.length + 1) rest
      return (.array items, rest)
    | '\x7b' :: rest =>
      match skipBlank rest with
      | '\x7d' :: rest => some (.object [], rest)
      | rest => do
        let (entries, rest) ← pairs? (valueWithin levels) [] (rest.length + 1) rest
        return (.object (Table.ofList (fieldsOf entries)), rest)
    | _ =>
      match text? t with
      | some (value, rest) => some (.string value, rest)
      | none =>
        let (written, rest) := t.span isScalarChar
        (scalar? written).map fun json => (json, rest)

/-- A value. -/
def value? (t : Text) : Option (Json × Text) := valueWithin (t.length + 1) (skipBlank t)

/-! ## Documents -/

/-- A document that is being read: its tables, and the path of the table that keys belong to. -/
structure Document where
  entries : Entries
  path : List Text

/-- Read a line: the header of a table, or a key and its value. -/
def Document.line? (d : Document) (t : Text) : Option (Document × Text) :=
  match skipBlank t with
  | '[' :: rest => do
    let (path, rest) ← key? rest
    let rest ← (match rest with
      | ']' :: rest => some rest
      | _ => none)
    return (⟨← d.entries.openHeader path, path⟩, ← lineEnd? rest)
  | t => do
    let (key, rest) ← key? t
    let rest ← (match rest with
      | '=' :: rest => some rest
      | _ => none)
    let (json, rest) ← value? rest
    return ({ d with entries := ← d.entries.addUnder key json d.path }, ← lineEnd? rest)

/-- Read the lines of a document; `steps` bounds their number. -/
def Document.lines? (d : Document) : Nat → Text → Option Document
  | 0, _ => none
  | steps + 1, t =>
    match skipLines (t.length + 1) t with
    | [] => some d
    | t =>
      match d.line? t with
      | some (d, rest) => d.lines? steps rest
      | none => none

/-- The values of a document, by name. -/
def read? (t : Text) : Option Fields :=
  let t := Text.withoutMark t
  (Document.lines? ⟨[], []⟩ (t.length + 1) t).map fun d => Table.ofList (fieldsOf d.entries)

end Offside.Toml
