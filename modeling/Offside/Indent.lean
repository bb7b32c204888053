import Offside.Text.Blank
import Offside.Text.Quoted

/-!
# Indentation

How deep a line stands is the only structure it carries.  Depth is counted in units, and a unit is
one tab or a fixed run of spaces, chosen per language.  A line may be indented by either kind of
character whatever the unit is: a tab is always worth one whole unit, a space a fraction of one
(`IndentUnit.columns` of them make a unit), and a fraction counts as a whole level.

Three operations have to fit together, since a text block is cut out of its surroundings by them:
writing `k` levels (`repeated`), measuring how deep a line is (`depth`), and taking `k` levels off
again (`strip`).

Columns are numbers in machine words.  `strip` is asked for any number of levels, so its budget can
be too large for a word: it counts modulo `Text.wordLimit`, as a word does.  `repeated` and `depth`
are about texts that are there, and count them exactly.  This is what a word holds as long as the
columns of the text are fewer than `Text.wordLimit`; an indentation that is wider than that, and
arithmetic that stops at an overflow instead of going on, are left out.
-/

namespace Offside

/-- One level of indentation. -/
inductive IndentUnit where
  | tab
  | spaces (count : Nat)
  deriving Repr, DecidableEq

/-- The indentation that was asked for is not made of only tabs or only spaces. -/
structure IndentError where
  written : Text
  deriving Repr, DecidableEq

namespace IndentError

/-- The text of the error. -/
def message (e : IndentError) : Text :=
  "indent must be made of only tabs or only spaces, got " ++ Text.quoted e.written

end IndentError

/-- The two characters that indentation is made of. -/
def isIndent (c : Char) : Bool := c == ' ' || c == '\t'

namespace IndentUnit

/-- Width of one level, measured in spaces. -/
def columns : IndentUnit → Nat
  | tab => 4
  | spaces count => max count 1

/-- Width of one character of indentation. -/
def width (unit : IndentUnit) (c : Char) : Nat := if c = '\t' then unit.columns else 1

/-- The text of `levels` levels. -/
def repeated : IndentUnit → Nat → Text
  | tab, levels => List.replicate levels '\t'
  | spaces count, levels => List.replicate (count * levels) ' '

/-- Width of the indentation at the beginning of a line. -/
def leadingColumns (unit : IndentUnit) (line : Text) : Nat :=
  (line.takeWhile isIndent).foldr (fun c columns => unit.width c + columns) 0

/-- How deep a line stands: its indentation in whole units, a fraction counting as one. -/
def depth (unit : IndentUnit) (line : Text) : Nat :=
  (unit.leadingColumns line + unit.columns - 1) / unit.columns

/-- Take indentation off a line as long as the columns `used` so far stay within the budget. -/
def stripFrom (unit : IndentUnit) (budget : Nat) : Nat → Text → Text
  | _, [] => []
  | used, c :: cs =>
    let next := (used + unit.width c) % Text.wordLimit
    if isIndent c && next ≤ budget then unit.stripFrom budget next cs else c :: cs

/-- Take up to `levels` levels of indentation off a line, keeping what is deeper. -/
def strip (unit : IndentUnit) (levels : Nat) (line : Text) : Text :=
  unit.stripFrom (levels * unit.columns % Text.wordLimit) 0 line

/-- The unit that a text of indentation stands for: any number of tabs is the tab, a run of spaces
is that many. -/
def ofText (t : Text) : Except IndentError IndentUnit :=
  if t.isEmpty then .error ⟨t⟩
  else if t.all (· == '\t') then .ok tab
  else if t.all (· == ' ') then .ok (spaces t.length)
  else .error ⟨t⟩

/-- The name of the unit. -/
def name : IndentUnit → Text
  | tab => "tab"
  | spaces count => Text.ofNat count ++ " spaces"

end IndentUnit

end Offside
