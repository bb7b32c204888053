import Offside.Text.Basic

/-!
# Paths as they are written

A path is a text.  It is shown in messages the way it was written, so joining, cutting and changing
the extension work on the text and leave the rest of it alone; which file or directory a path names
is decided by `Offside.FileStore`.

The parts of a path are what stands between its slashes.  Empty parts and single dots carry no name
and are passed over, a double dot is a part that has no name.
-/

namespace Offside

/-- A path as it is written. -/
abbrev FilePath := Text

namespace FilePath

/-- Whether a path starts from the root. -/
def isAbsolute (p : FilePath) : Bool := p.head? == some '/'

/-- A path below another; an absolute one stands for itself. -/
def join (base p : FilePath) : FilePath :=
  if isAbsolute p || base.isEmpty then p
  else if base.getLast? == some '/' then base ++ p
  else base ++ "/" ++ p

/-- Drop the slashes and single dots at the end of a path that is given with its last character
first. -/
def trimTail : Text → Text
  | ['/'] => ['/']
  | '/' :: rest => trimTail rest
  | '.' :: '/' :: rest => trimTail ('/' :: rest)
  | t => t

/-- The last part of a path, with what stands before it, both with the last character first. -/
def lastPart (p : FilePath) : Text × Text := (trimTail p.reverse).span (· != '/')

/-- The path without its last part; the root and the empty path have none. -/
def parent? (p : FilePath) : Option FilePath :=
  match trimTail p.reverse with
  | [] => none
  | ['/'] => none
  | t => some (trimTail (t.dropWhile (· != '/'))).reverse

/-- The name at the end of a path. -/
def fileName? (p : FilePath) : Option Text :=
  let name := (lastPart p).1.reverse
  if name.isEmpty || name == "." || name == ".." then none else some name

/-- Split a name at its last dot, unless that is its first character. -/
def splitName (name : Text) : Text × Option Text :=
  match name.reverse.span (· != '.') with
  | (_, []) => (name, none)
  | (_, ['.']) => (name, none)
  | (extension, _ :: stem) => (stem.reverse, some extension.reverse)

/-- What follows the last dot of the name. -/
def extension? (p : FilePath) : Option Text := (fileName? p).bind fun name => (splitName name).2

/-- Put an extension after the name in place of the one it has; the empty extension takes it
off. -/
def setExtension (p : FilePath) (extension : Text) : FilePath :=
  match fileName? p with
  | none => p
  | some name =>
    let stem := (lastPart p).2.reverse ++ (splitName name).1
    if extension.isEmpty then stem else stem ++ "." ++ extension

/-- Put an extension after the name and the extension it has. -/
def addExtension (p : FilePath) (extension : Text) : FilePath :=
  match fileName? p with
  | none => p
  | some name => (lastPart p).2.reverse ++ name ++ "." ++ extension

/-- The path with another extension. -/
def withExtension (p : FilePath) (extension : Text) : FilePath :=
  match extension? p with
  | none => setExtension p extension
  | some old => setExtension (p.take (p.length - old.length)) extension

/-- The parts of a path that carry meaning.  The root is a part of its own, and so is a single dot
at the beginning. -/
def parts (p : FilePath) : List Text :=
  let pieces := Text.splitOn '/' p
  let named := pieces.filter fun (piece : Text) => !piece.isEmpty && piece != "."
  if isAbsolute p then "/" :: named
  else if pieces.head? == some "." then "." :: named
  else named

/-- The path with the given parts. -/
def ofParts : List Text → FilePath
  | ['/'] :: named => '/' :: Text.join "/" named
  | named => Text.join "/" named

/-- What follows the parts of `base` in a path that begins with them. -/
def relativeTo? (base p : FilePath) : Option FilePath :=
  ((parts base).isPrefixOf? (parts p)).map ofParts

end FilePath

end Offside
