import Offside.Yaml.Flow

/-!
# Reading YAML

A document is read line by line.  Lines of one indentation are the items of a list, each after a
dash, or the pairs of a mapping, each with its key in front of a colon; what is indented more
belongs to the item or key before it.  Anything else is a scalar, or a list or mapping in brackets,
that may go on over several lines.  Of a key that is given twice the last value counts.
-/

namespace Offside.Yaml

/-- A line that is not blank: how far it is indented, and what it holds without its comment. -/
structure Line where
  indent : Nat
  content : Text

/-! ## Lines -/

/-- Whether a quote after the given character begins a text. -/
def opensText (previous : Option Char) : Bool :=
  match previous with
  | none => true
  | some c => c == ' ' || c == '\t' || c == ',' || c == '[' || c == '\x7b' || c == ':'

/-- Where a character of a line stands: outside of quotes, in a text in the given quotes, or there
after a backslash. -/
inductive Standing where
  | outside
  | within (mark : Char)
  | escaped
  deriving Repr, DecidableEq

/-- Where the character after `c` stands. -/
def Standing.after (previous : Option Char) (c : Char) : Standing → Standing
  | .escaped => .within '"'
  | .within mark =>
    if c == mark then .outside
    else if c == '\\' && mark == '"' then .escaped
    else .within mark
  | .outside => if (c == '"' || c == '\'') && opensText previous then .within c else .outside

/-- Drop a comment, given the character before a text and where its first character stands. -/
def dropComment (previous : Option Char) (standing : Standing) : Text → Text
  | [] => []
  | c :: rest =>
    if c == '#' && standing == .outside && previous.all (fun p => p == ' ' || p == '\t') then []
    else c :: dropComment (some c) (standing.after previous c) rest

/-- The line that a text is, if it holds anything. -/
def lineOf? (t : Text) : Option Line :=
  let content := Text.trimEnd (dropComment none .outside t)
  if content.isEmpty then none
  else some ⟨(content.takeWhile (· == ' ')).length, content.dropWhile (· == ' ')⟩

/-- The lines of a document; a line of three dashes may stand before them. -/
def linesOf (t : Text) : List Line :=
  let lines := (Text.splitOn '\n' t).filterMap lineOf?
  match lines with
  | first :: rest => if first.indent == 0 && first.content == "---" then rest else lines
  | [] => []

/-- What follows the dash of an item. -/
def itemOf? : Text → Option Text
  | ['-'] => some []
  | '-' :: ' ' :: rest => some (' ' :: rest)
  | _ => none

/-- A plain key with what follows its colon. -/
def plainKey? : Text → Option (Text × Text)
  | [] => none
  | [':'] => some ([], [])
  | ':' :: c :: rest =>
    if c == ' ' || c == '\t' then some ([], c :: rest)
    else (plainKey? (c :: rest)).map fun (key, rest) => (':' :: key, rest)
  | c :: rest => (plainKey? rest).map fun (key, rest) => (c :: key, rest)

/-- The key of a line with what follows its colon. -/
def keyOf? (t : Text) : Option (Text × Text) :=
  match quoted? t with
  | some (key, rest) =>
    match skipBlank rest with
    | [':'] => some (key, [])
    | ':' :: c :: rest => if c == ' ' || c == '\t' then some (key, rest) else none
    | _ => none
  | none =>
    if startsPlain t then (plainKey? t).map fun (key, rest) => (Text.trimEnd key, rest) else none

/-! ## Values -/

/-- The value that a whole text in brackets or quotes stands for. -/
def wholeFlow? (t : Text) : Option Json :=
  match flowValue? (t.length + 1) t with
  | some (json, rest) => if (skipBlank rest).isEmpty then some json else none
  | none => none

/-- The value of a text in brackets that goes on over as many lines as it needs, and the lines after
it. -/
def flowOver? (t : Text) : List Line → Option (Json × List Line)
  | [] => (wholeFlow? t).map fun json => (json, [])
  | line :: rest =>
    match wholeFlow? t with
    | some json => some (json, line :: rest)
    | none => flowOver? (t ++ " " ++ line.content) rest

/-- Whether a text begins with a bracket. -/
def startsFlow (t : Text) : Bool := t.head?.any fun c => c == '[' || c == '\x7b'

/-- The value that the lines of a scalar, or of something in brackets, stand for. -/
def inline? (lines : List Text) : Option Json :=
  let t := Text.join " " lines
  if t.isEmpty then some .null
  else if startsFlow t || t.head?.any (fun c => c == '"' || c == '\'') then wholeFlow? t
  else if startsPlain t && (keyOf? t).isNone then some (plainValue t)
  else none

/-- The lines that belong to what stands at an indentation, and those after them. -/
def below (indent : Nat) (lines : List Line) : List Line × List Line :=
  lines.span fun line => indent < line.indent

/-- The lines that belong to a key: those indented more, or else the items at its own indentation.
-/
def belowKey (indent : Nat) (lines : List Line) : List Line × List Line :=
  match below indent lines with
  | ([], rest) => rest.span fun line => line.indent == indent && (itemOf? line.content).isSome ||
      indent < line.indent
  | found => found

/-- The items of a list at an indentation, given the reader of a block.  `steps` bounds their
number. -/
def items? (block : List Line → Option Json) (indent : Nat) : Nat → List Line → Option (List Json)
  | _, [] => some []
  | 0, _ => none
  | steps + 1, line :: rest =>
    match itemOf? line.content with
    | none => none
    | some after =>
      let (inner, rest) := below indent rest
      let content := after.dropWhile (· == ' ')
      let first : List Line :=
        if content.isEmpty then [] else [⟨indent + 1 + (after.length - content.length), content⟩]
      if line.indent != indent then none
      else do
        let item ← block (first ++ inner)
        let items ← items? block indent steps rest
        return item :: items

/-- The value of a key, given what follows the colon and the lines after it. -/
def valueOf? (block : List Line → Option Json) (indent : Nat) (content : Text) (rest : List Line) :
    Option (Json × List Line) :=
  if content.isEmpty then
    let (inner, rest) := belowKey indent rest
    (block inner).map fun json => (json, rest)
  else if startsFlow content then flowOver? content rest
  else
    let (inner, rest) := below indent rest
    (inline? (content :: inner.map (·.content))).map fun json => (json, rest)

/-- The pairs of a mapping at an indentation, given the reader of a block.  `steps` bounds their
number. -/
def pairs? (block : List Line → Option Json) (indent : Nat) :
    Nat → List Line → Option (List (Text × Json))
  | _, [] => some []
  | 0, _ => none
  | steps + 1, line :: rest =>
    match keyOf? line.content with
    | none => none
    | some (key, after) =>
      if line.indent != indent then none
      else do
        let (value, rest) ← valueOf? block indent (skipBlank after) rest
        let pairs ← pairs? block indent steps rest
        return (key, value) :: pairs

/-- The value of a block of lines that nests at most `levels` deep. -/
def blockWithin : Nat → List Line → Option Json
  | 0, _ => none
  | _, [] => some .null
  | levels + 1, line :: rest =>
    let lines := line :: rest
    if (itemOf? line.content).isSome then
      (items? (blockWithin levels) line.indent lines.length lines).map .array
    else if (keyOf? line.content).isSome then
      (pairs? (blockWithin levels) line.indent lines.length lines).map fun pairs =>
        .object (Table.ofList pairs)
    else inline? (lines.map (·.content))

/-- The data value that a document holds. -/
def read? (t : Text) : Option Json := blockWithin (t.length + 1) (linesOf t)

end Offside.Yaml
