import Offside.Indent

/-!
# Source lines and wrapped lines

A source is cut at its line feeds, and carriage returns at the end of a line are dropped, so that
both ways of ending a line give the same lines.  `sourceLines` numbers the lines from one and
measures their depth.

`wrapWords` goes the other way: it lays the words of a text out on lines, greedily.
-/

namespace Offside

/-- A line of source with its number and its measured depth. -/
structure SourceLine where
  /-- Counted from one. -/
  number : Nat
  /-- The line as written, without its ending. -/
  raw : Text
  depth : Nat
  deriving Repr, DecidableEq

namespace SourceLine

/-- The line without its indentation. -/
def content (line : SourceLine) : Text := line.raw.dropWhile isIndent

/-- Whether the line has nothing on it but white space. -/
def isBlank (line : SourceLine) : Bool := Text.isBlankText line.raw

end SourceLine

/-- Drop the carriage returns at the end of a line. -/
def dropReturns (line : Text) : Text := Text.dropEndWhile (· == '\r') line

/-- The lines of a source, without their endings. -/
def rawLines (source : Text) : List Text := (Text.splitOn '\n' source).map dropReturns

/-- Number lines from `first` on and measure their depth. -/
def numberLines (unit : IndentUnit) : Nat → List Text → List SourceLine
  | _, [] => []
  | first, raw :: rest => ⟨first, raw, unit.depth raw⟩ :: numberLines unit (first + 1) rest

/-- The lines of a source, numbered and measured. -/
def sourceLines (unit : IndentUnit) (source : Text) : List SourceLine :=
  numberLines unit 1 (rawLines source)

/-! ## Wrapping -/

/-- Lay words out after the line `current` that is being filled: the next word goes on the same
line if it fits within `width` bytes, and on a line of its own otherwise. -/
def fillLines (width : Nat) (current : Text) : List Text → List Text
  | [] => [current]
  | word :: words =>
    if current.isEmpty then fillLines width word words
    else if width < Text.byteLength current + 1 + Text.byteLength word then
      current :: fillLines width word words
    else fillLines width (current ++ " " ++ word) words

/-- Wrap a text at its spaces to lines of at most `width` bytes; a longer word stays whole on a line
of its own. -/
def wrapWords (width : Nat) (text : Text) : Text :=
  Text.join "\n" (fillLines width [] (Text.splitOn ' ' text))

end Offside
