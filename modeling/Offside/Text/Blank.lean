import Offside.Text.Basic

/-!
# White space

`isBlank` is the Unicode property `White_Space`.  It is what separates a name from its value, what
is trimmed off the ends of a line, and what makes a line blank.  It is wider than the two
characters that count as indentation (`Offside.Indent`): a line of no-break spaces is blank, and
not indented.
-/

namespace Offside.Text

/-- The Unicode property `White_Space`. -/
def isBlank (c : Char) : Bool :=
  let n := c.toNat
  (0x9 ≤ n && n ≤ 0xd) || n == 0x20 || n == 0x85 || n == 0xa0 || n == 0x1680 ||
    (0x2000 ≤ n && n ≤ 0x200a) || n == 0x2028 || n == 0x2029 || n == 0x202f || n == 0x205f ||
    n == 0x3000

/-- Whether a text has no character but white space. -/
def isBlankText (t : Text) : Bool := t.all isBlank

/-- Drop white space at the beginning. -/
def trimStart (t : Text) : Text := t.dropWhile isBlank

/-- Drop white space at the end. -/
def trimEnd (t : Text) : Text := dropEndWhile isBlank t

/-- Drop white space at both ends. -/
def trim (t : Text) : Text := trimEnd (trimStart t)

end Offside.Text
