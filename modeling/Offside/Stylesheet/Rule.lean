import Offside.Outline.Builder
import Offside.Text.Blank

/-!
# Rules and their selectors

A stylesheet is an outline of rules.  A rule has its selector as written, the line it stands on, and
its attributes in the order in which they were first set.

What a rule selects depends on where it stands.  The parts of its selector between commas are its
fragments, and every fragment is put behind every fragment of the rule above it, so that `a, b`
below `ul, ol` selects in four ways.
-/

namespace Offside

/-- A rule of a stylesheet. -/
structure StyleRule where
  selector : Text
  /-- The line it stands on, counted from one. -/
  line : Nat
  attributes : List (Text × Text)
  deriving Repr, DecidableEq

/-- An outline of rules. -/
abbrev StyleOutline := Outline StyleRule

/-- Give a name a value in a list of attributes: in its place if the name is there already. -/
def setAttributeIn (name value : Text) : List (Text × Text) → List (Text × Text)
  | [] => [(name, value)]
  | (known, old) :: rest =>
    if known == name then (known, value) :: rest
    else (known, old) :: setAttributeIn name value rest

namespace StyleRule

/-- A rule without attributes. -/
def ofSelector (selector : Text) (line : Nat) : StyleRule := ⟨selector, line, []⟩

/-- Set an attribute. -/
def setAttribute (r : StyleRule) (name value : Text) : StyleRule :=
  { r with attributes := setAttributeIn name value r.attributes }

/-- Set attributes one after the other. -/
def setAttributes (r : StyleRule) (attributes : List (Text × Text)) : StyleRule :=
  attributes.foldl (fun r (name, value) => r.setAttribute name value) r

/-- Whether a rule has attributes. -/
def hasAttributes (r : StyleRule) : Bool := !r.attributes.isEmpty

/-- The parts of the selector between commas. -/
def fragments (r : StyleRule) : List Text :=
  ((Text.splitOn ',' r.selector).map Text.trim).filter fun fragment => !fragment.isEmpty

end StyleRule

/-- The selectors of a rule, given the fragments of the rule and of the rules above it, the nearest
first. -/
def combineFragments : List (List Text) → List Text
  | [] => []
  | [own] => own
  | own :: above =>
    own.flatMap fun fragment => (combineFragments above).map fun outer => outer ++ " " ++ fragment

/-- All selectors of a rule, resolved against the rules above it. -/
def selectors (t : StyleOutline) (id : NodeId) : List Text :=
  combineFragments ((id :: t.ancestors id).map fun node =>
    ((t.get? node).map StyleRule.fragments).getD [])

/-- The selectors of a rule, written with `separator` between them. -/
def selectorText (separator : Text) (t : StyleOutline) (id : NodeId) : Text :=
  Text.join separator (selectors t id)

end Offside
