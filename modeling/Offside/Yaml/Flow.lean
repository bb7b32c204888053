import Offside.Text.Blank
import Offside.Yaml.Scalar

/-!
# Lists and mappings in brackets

Inside brackets indentation does not count: items stand between commas, and the last comma may be
left out.  A key without a value stands for null.
-/

namespace Offside.Yaml

/-- Drop white space. -/
def skipBlank (t : Text) : Text := t.dropWhile fun c => c == ' ' || c == '\t' || c == '\n'

/-- The marks that end a plain scalar inside brackets. -/
def isFlowMark (c : Char) : Bool := ",[]\x7b\x7d".toList.contains c

/-- Whether a colon in front of a text ends a plain scalar inside brackets. -/
def endsKey (rest : Text) : Bool :=
  match rest with
  | [] => true
  | c :: _ => c == ' ' || c == '\t' || c == '\n' || isFlowMark c

/-- A plain scalar inside brackets, with what follows it. -/
def flowPlain : Text → Text × Text
  | [] => ([], [])
  | c :: rest =>
    if isFlowMark c || (c == ':' && endsKey rest) then ([], c :: rest)
    else
      let (t, after) := flowPlain rest
      (c :: t, after)

/-- A scalar inside brackets: its data value, and its text. -/
def flowScalar? (t : Text) : Option ((Json × Text) × Text) :=
  match quoted? t with
  | some (value, rest) => some ((.string value, value), rest)
  | none =>
    let (written, rest) := flowPlain t
    let written := Text.trimEnd written
    if !written.isEmpty && startsPlain written then some ((plainValue written, written), rest)
    else none

/-- The items of a list after its bracket, given the reader of a value; `steps` bounds their
number. -/
def flowItems? (value : Text → Option (Json × Text)) : Nat → Text → Option (List Json × Text)
  | 0, _ => none
  | steps + 1, t =>
    match skipBlank t with
    | ']' :: rest => some ([], rest)
    | t => do
      let (item, rest) ← value t
      match skipBlank rest with
      | ',' :: rest => do
        let (items, rest) ← flowItems? value steps rest
        return (item :: items, rest)
      | ']' :: rest => return ([item], rest)
      | _ => none

/-- The value after a key inside brackets; without a colon it is null. -/
def flowValueOf? (value : Text → Option (Json × Text)) (t : Text) : Option (Json × Text) :=
  match skipBlank t with
  | ':' :: rest =>
    match skipBlank rest with
    | c :: rest => if c == ',' || c == '\x7d' then some (.null, c :: rest) else value (c :: rest)
    | [] => none
  | t => some (.null, t)

/-- The pairs of a mapping after its brace, given the reader of a value; `steps` bounds their
number. -/
def flowPairs? (value : Text → Option (Json × Text)) :
    Nat → Text → Option (List (Text × Json) × Text)
  | 0, _ => none
  | steps + 1, t =>
    match skipBlank t with
    | '\x7d' :: rest => some ([], rest)
    | t => do
      let ((_, key), rest) ← flowScalar? t
      let (json, rest) ← flowValueOf? value rest
      match skipBlank rest with
      | ',' :: rest => do
        let (pairs, rest) ← flowPairs? value steps rest
        return ((key, json) :: pairs, rest)
      | '\x7d' :: rest => return ([(key, json)], rest)
      | _ => none

/-- A value inside brackets, or in them, that nests at most `levels` deep. -/
def flowValue? : Nat → Text → Option (Json × Text)
  | 0, _ => none
  | levels + 1, t =>
    match skipBlank t with
    | '[' :: rest => do
      let (items, rest) ← flowItems? (flowValue? levels) (rest.length + 1) rest
      return (.array items, rest)
    | '\x7b' :: rest => do
      let (pairs, rest) ← flowPairs? (flowValue? levels) (rest.length + 1) rest
      return (.object (Table.ofList pairs), rest)
    | t => (flowScalar? t).map fun ((json, _), rest) => (json, rest)

end Offside.Yaml
