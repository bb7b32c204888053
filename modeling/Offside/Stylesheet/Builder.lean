import Offside.Calculator
import Offside.Lines
import Offside.Stylesheet.Line
import Offside.Stylesheet.Rule

/-!
# From lines to an outline of rules

Rules become nodes; every other line only changes the state of the builder.  An attribute belongs to
the rule that is open one level above it.  Attribute lines are collected and set on that rule when
the next rule line comes, when an attribute of another level comes, and at the end.

```text
a                 a rule at depth 0
  :color red      an attribute at depth 1, so of level 0: it belongs to `a`
  :font           a group at depth 1
    :size 2em     an attribute at depth 2 in the group: `font-size`, of level 0
```

A group stays open for lines exactly one level below it; a rule, or an attribute on any other level,
closes it.
-/

namespace Offside

/-- An expression on a line that could not be computed. -/
structure StyleFault where
  line : Nat
  cause : CalculationError
  deriving Repr, DecidableEq

/-- Attributes that belong to no rule. -/
inductive StyleWarning where
  | outsideAnyRule (line : Nat) (name : Text)
  | noRuleAtLevel (count : Nat)
  deriving Repr, DecidableEq

namespace StyleWarning

/-- The text of the warning, with its details. -/
def message : StyleWarning → Text
  | outsideAnyRule line name =>
    "attribute outside of any rule ignored|line=" ++ Text.ofNat line ++ "|attribute=" ++ name
  | noRuleAtLevel count =>
    "attributes with no rule at their level ignored|count=" ++ Text.ofNat count

end StyleWarning

/-- An open group of attributes. -/
structure AttributeGroup where
  name : Text
  depth : Nat
  deriving Repr, DecidableEq

/-- The state between two lines. -/
structure StyleBuilder where
  calculator : Calculator
  rules : OutlineBuilder StyleRule
  group : Option AttributeGroup
  /-- Attributes that are not set on their rule yet. -/
  pending : List (Text × Text)
  /-- The level of the rule that the pending attributes belong to. -/
  pendingLevel : Option Nat
  warnings : List StyleWarning

namespace StyleBuilder

/-- Before the first line. -/
def start (calculator : Calculator) : StyleBuilder := ⟨calculator, .empty, none, [], none, []⟩

/-- Set the pending attributes on the rule that is open at their level. -/
def flush (b : StyleBuilder) : StyleBuilder :=
  if b.pending.isEmpty then b
  else
    let flushed := { b with pending := [], pendingLevel := none }
    match b.pendingLevel.bind b.rules.openAt? with
    | some id =>
      { flushed with rules := b.rules.update id fun rule => rule.setAttributes b.pending }
    | none => { flushed with warnings := b.warnings ++ [.noRuleAtLevel b.pending.length] }

/-- The group that an attribute at this depth is in. -/
def groupAt (b : StyleBuilder) (depth : Nat) : Option AttributeGroup :=
  b.group.filter fun group => group.depth + 1 = depth

/-- The full name of an attribute, and how many levels it stands below its rule. -/
def nameIn (group : Option AttributeGroup) (name : Text) : Text × Nat :=
  match group with
  | some group => (group.name ++ "-" ++ name, 2)
  | none => (name, 1)

/-- Collect an attribute. -/
def collect (b : StyleBuilder) (name value : Text) (depth line : Nat) : StyleBuilder :=
  let group := b.groupAt depth
  let (name, below) := nameIn group name
  let b := { b with group := group }
  if depth < below then { b with warnings := b.warnings ++ [.outsideAnyRule line name] }
  else
    let level := depth - below
    let b := if b.pendingLevel.any (· != level) then b.flush else b
    { b with pendingLevel := some level, pending := setAttributeIn name value b.pending }

/-- Take in one line. -/
def step (b : StyleBuilder) (line : SourceLine) : Except StyleFault StyleBuilder :=
  match StyleLine.ofText line.content with
  | .blank => .ok b
  | .comment => .ok b
  | .constant name value => .ok { b with calculator := b.calculator.define name value }
  | .group name => .ok { b with group := some ⟨name, line.depth⟩ }
  | .computed name expression =>
    match b.calculator.calculate expression with
    | .ok value => .ok (b.collect name value line.depth line.number)
    | .error cause => .error ⟨line.number, cause⟩
  | .literal name value => .ok (b.collect name value line.depth line.number)
  | .rule selector =>
    let b := { b with group := none }.flush
    .ok { b with rules := b.rules.push line.depth (.ofSelector selector line.number) }

end StyleBuilder

/-- A stylesheet as an outline, with what could not be placed in it. -/
structure StyleParse where
  outline : StyleOutline
  warnings : List StyleWarning
  deriving Repr, DecidableEq

/-- The outline of a stylesheet.  Constants are known before the first line, and lines can define
more. -/
def parseStyles (unit : IndentUnit) (constants : List (Text × Text)) (source : Text) :
    Except StyleFault StyleParse := do
  let b ← (sourceLines unit source).foldlM StyleBuilder.step (.start (.ofList constants))
  let b := b.flush
  return ⟨b.rules.outline, b.warnings⟩

end Offside
