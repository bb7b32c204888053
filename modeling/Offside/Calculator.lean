import Offside.Quantity.Arithmetic

/-!
# The calculator

An expression is evaluated as a text.  Constants are put in for their names, colors are brought to
their one spelling, and then groups in parentheses are replaced by their values, innermost first,
until none is left; what remains is taken apart at its operators (`reduce`).  Every intermediate
result is a text again, so a result that could not be computed simply stays in the expression.

Two observations make this end.  Taking a text apart at an operator leaves two texts with fewer
operator characters, and computing never produces more of them than went in, so the operator
characters of a text bound how deep `reduce` goes.  Replacing a group takes at least one opening
parenthesis away, so the opening parentheses bound how many groups are replaced.

A constant is looked for with a pattern that is made of its name.  Patterns have a largest size, and
a constant whose name is too long for one is passed over.  How large patterns get is left out: which
names have a pattern is part of the calculator (`Calculator.hasPattern`), and `Calculator.empty` and
`Calculator.ofList` take every name to have one.
-/

namespace Offside

/-! ## Signs and spaces -/

/-- Two minus signs in a row make a plus sign. -/
def mergeMinus : Text → Text
  | '-' :: '-' :: rest => '+' :: mergeMinus rest
  | c :: rest => c :: mergeMinus rest
  | [] => []

/-- A plus sign before a minus sign is dropped. -/
def dropPlus : Text → Text
  | '+' :: '-' :: rest => '-' :: dropPlus rest
  | c :: rest => c :: dropPlus rest
  | [] => []

/-- Bring runs of signs to a single sign: first `--` to `+`, then `+-` to `-`. -/
def normalizeSigns (t : Text) : Text := dropPlus (mergeMinus t)

/-- Drop the white space around operators.  `afterOperator` says whether the last character that is
not white space was an operator. -/
def tightenFrom (afterOperator : Bool) : Text → Text
  | [] => []
  | c :: rest =>
    if Text.isBlank c then
      let next := (Text.trimStart rest).head?
      if afterOperator || next.any isOperator then tightenFrom afterOperator rest
      else c :: tightenFrom false rest
    else c :: tightenFrom (isOperator c) rest

/-- Apply `f` to the pieces that are outside of double quotes: every other piece, the first among
them. -/
def mapUnquoted (f : Text → Text) : List Text → List Text
  | [] => []
  | [outside] => [f outside]
  | outside :: inside :: rest => f outside :: inside :: mapUnquoted f rest

/-- Drop the white space around operators outside of quotes. -/
def tighten (t : Text) : Text :=
  Text.join "\"" (mapUnquoted (tightenFrom false) (Text.splitOn '"' t))

/-! ## Taking an expression apart -/

/-- Split at the first binary occurrence of `op` that is outside of quotes, neither first nor last,
and, for a minus sign, not after another operator.  `before` holds the characters passed so far, the
last one first. -/
def splitBinaryFrom (op : Operator) (quoted : Bool) (before : Text) : Text → Option (Text × Text)
  | [] => none
  | c :: rest =>
    if c = '"' then splitBinaryFrom op (!quoted) (c :: before) rest
    else if !quoted && c == op.symbol && !before.isEmpty && !rest.isEmpty &&
        (op != .sub || !before.head?.any isOperator) then
      some (before.reverse, rest)
    else splitBinaryFrom op quoted (c :: before) rest

/-- The two sides of the first binary occurrence of `op`. -/
def splitBinary (op : Operator) (t : Text) : Option (Text × Text) :=
  splitBinaryFrom op false [] t

/-- How many operator characters a text has, quoted or not. -/
def operatorCount (t : Text) : Nat := t.countP isOperator

/-- Take a text apart at its operators, at most `depth` deep: at the first addition, then what
results at the first subtraction, then at a multiplication and a division. -/
def reduceWithin : Nat → Text → Except CalculationError Text
  | 0, t => .ok t
  | depth + 1, t =>
    Operator.all.foldlM (fun current op =>
      match splitBinary op current with
      | none => .ok current
      | some (left, right) => do
        let left ← reduceWithin depth left
        let right ← reduceWithin depth right
        let value ← (Quantity.ofText left).apply op (Quantity.ofText right)
        return normalizeSigns value.written)
      (normalizeSigns (tighten (Text.trim t)))

/-- The value of an expression without groups. -/
def reduce (t : Text) : Except CalculationError Text := reduceWithin (operatorCount t + 1) t

/-! ## Groups -/

/-- A group in parentheses, with what stands before and after it. -/
structure Group where
  before : Text
  inside : Text
  after : Text
  deriving Repr, DecidableEq

/-- Whether a parenthesis after this text opens a color.  The text is given with its last character
first. -/
def opensColor (passed : Text) : Bool := Text.startsWith "bgr" (Text.lowerAscii passed)

/-- Find the group that is closed first, leaving the parentheses of colors alone.  `passed` holds
the characters passed so far, the last one first; `opened` holds, for each parenthesis that is still
open, what had been passed before it.  The whole expression is kept for the error. -/
def firstGroupFrom (whole : Text) (quoted : Bool) (opened : List Text) (passed : Text) :
    Text → Except CalculationError (Option Group)
  | [] => if opened.isEmpty then .ok none else .error (.unbalanced whole)
  | c :: rest =>
    if c = '"' then firstGroupFrom whole (!quoted) opened (c :: passed) rest
    else if c = '(' && !quoted then
      firstGroupFrom whole quoted (passed :: opened) (c :: passed) rest
    else if c = ')' && !quoted then
      match opened with
      | [] => .error (.unbalanced whole)
      | before :: outer =>
        if opensColor before then firstGroupFrom whole quoted outer (c :: passed) rest
        else
          let inside := passed.take (passed.length - before.length - 1)
          .ok (some ⟨before.reverse, inside.reverse, rest⟩)
    else firstGroupFrom whole quoted opened (c :: passed) rest

/-- The group that is closed first, if there is a group. -/
def firstGroup (t : Text) : Except CalculationError (Option Group) :=
  firstGroupFrom t false [] [] t

/-- Replace groups by their values, at most `count` of them. -/
def resolveGroupsWithin : Nat → Text → Except CalculationError Text
  | 0, t => .ok t
  | count + 1, t => do
    match ← firstGroup t with
    | none => return t
    | some group =>
      let value ← reduce group.inside
      resolveGroupsWithin count (normalizeSigns (group.before ++ value ++ group.after))

/-- Replace groups by their values until none is left. -/
def resolveGroups (t : Text) : Except CalculationError Text :=
  resolveGroupsWithin (t.count '(' + 1) t

/-! ## Constants -/

/-- The constants an expression can refer to.  Names are told apart up to the case of the letters A
to Z, and keep the spelling and the place of their first definition. -/
structure Calculator where
  constants : List (Text × Text)
  /-- Whether a pattern can be made of a name. -/
  hasPattern : Text → Bool

namespace Calculator

/-- No constants. -/
def empty : Calculator := ⟨[], fun _ => true⟩

/-- Give a name its value in a list of constants. -/
def defineIn (name value : Text) : List (Text × Text) → List (Text × Text)
  | [] => [(name, value)]
  | (known, old) :: rest =>
    if Text.sameIgnoringCase known name then (known, value) :: rest
    else (known, old) :: defineIn name value rest

/-- Define a constant, or give it a new value. -/
def define (c : Calculator) (name value : Text) : Calculator :=
  { c with constants := defineIn name value c.constants }

/-- The calculator with the given definitions, made one after the other. -/
def ofList (definitions : List (Text × Text)) : Calculator :=
  definitions.foldl (fun c (name, value) => c.define name value) empty

/-- The value of a constant. -/
def constant? (c : Calculator) (name : Text) : Option Text :=
  (c.constants.find? fun (known, _) => Text.sameIgnoringCase known name).map (·.2)

/-- Put a value in for every `!` that is followed by a name up to case, skipping the given number of
characters first. -/
def substituteFrom (name value : Text) : Nat → Text → Text
  | _, [] => []
  | skip + 1, _ :: cs => substituteFrom name value skip cs
  | 0, c :: cs =>
    if c = '!' && (Text.dropFoldPrefix? name cs).isSome then
      value ++ substituteFrom name value name.length cs
    else c :: substituteFrom name value 0 cs

/-- The constants with the longest names first; names of the same length stay in order. -/
def longestFirst (c : Calculator) : List (Text × Text) :=
  c.constants.mergeSort fun a b => Text.byteLength b.1 ≤ Text.byteLength a.1

/-- Put the constants in, one after the other, and pass over those that have no pattern. -/
def substitute (c : Calculator) (t : Text) : Text :=
  c.longestFirst.foldl (fun t (name, value) =>
    if c.hasPattern name then substituteFrom name value 0 t else t) t

/-- The value of an expression, as a text. -/
def calculate (c : Calculator) (expression : Text) : Except CalculationError Text := do
  let flat ← resolveGroups (expandColors (c.substitute expression))
  reduce flat

end Calculator

end Offside
