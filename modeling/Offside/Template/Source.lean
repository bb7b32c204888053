import Offside.Lines
import Offside.Settings.Basic
import Offside.Template.Error
import Offside.Text.Digit

/-!
# The lines of a template source

Before the lines of a template are read, three directives on them are resolved:

```text
text |          the next line is put behind this one, without its indentation
more text

%div ?2         this line and the lines nested under it stand two levels deeper

!! header       the lines of the file `header` stand here, as deep as this line
```

An included file can hold directives, so the lines are gone through again until none holds any.  How
often is limited, and a source that then still holds directives, as one that includes itself does,
cannot be resolved.

Each line keeps the path of the file that it came from.
-/

namespace Offside

/-- A line of a template, with the included file it came from. -/
structure OriginLine where
  text : Text
  /-- There is none for a line of the template itself. -/
  origin : Option FilePath
  deriving Repr, DecidableEq

/-! ## Continued lines -/

/-- A line that is continued on the next, without the mark at its end. -/
def continued? (t : Text) : Option Text := Text.dropSuffix? "|" (Text.trimEnd t)

/-- Put each continued line and the line after it together.  The first argument is the line that is
to be continued. -/
def joinAfter : Option OriginLine → List OriginLine → List OriginLine
  | pending, [] => pending.toList
  | pending, next :: rest =>
    let line : OriginLine :=
      match pending with
      | some head => { head with text := head.text ++ Text.trimStart next.text }
      | none => next
    match continued? line.text with
    | some text => joinAfter (some { line with text := text }) rest
    | none => line :: joinAfter none rest

/-- Put each continued line and the line after it together. -/
def joinContinuations (lines : List OriginLine) : List OriginLine := joinAfter none lines

/-! ## Directives -/

/-- The number of levels that a text of digits stands for.  What is no number of 64 bits stands for
none. -/
def overrideLevels (digits : Text) : Nat :=
  match Text.natValue? digits with
  | some levels => if levels < Text.wordLimit then levels else 0
  | none => 0

/-- A line with a depth override: the line without it, and the number of levels. -/
def depthOverride? (t : Text) : Option (Text × Nat) :=
  let (digits, before) := (t.reverse.dropWhile Text.isBlank).span Text.isDigit
  match digits, before with
  | _ :: _, '?' :: before =>
    some ((before.dropWhile Text.isBlank).reverse, overrideLevels digits.reverse)
  | _, _ => none

/-- What a line includes. -/
def staticInclude? (t : Text) : Option Text :=
  (Text.dropPrefix? "!! " (Text.trimStart t)).filter fun name =>
    !name.isEmpty && !name.contains '\n'

/-- Whether a line holds a directive that is resolved pass by pass. -/
def hasDirective (line : OriginLine) : Bool :=
  (depthOverride? line.text).isSome || (staticInclude? line.text).isSome

/-! ## Resolving -/

/-- Where sources are found and how they are read. -/
structure SourceReader where
  settings : TemplateSettings
  root : FilePath
  files : FileStore

namespace SourceReader

/-- The file that a name stands for. -/
def includePath (r : SourceReader) (name : Text) : FilePath :=
  FilePath.join r.root (Text.trim name ++ "." ++ r.settings.sourceExtension)

/-- The lines of a file, without the line ends at its end. -/
def fileLines (content : Text) : List Text :=
  Text.splitOn '\n' (Text.dropEndWhile (fun c => c == '\n' || c == '\r') content)

/-- A line of an included file, as deep as the directive. -/
def placeLine (r : SourceReader) (path : FilePath) (depth : Nat) (line : Text) : OriginLine :=
  let line := dropReturns line
  { text := if Text.isBlankText line then [] else r.settings.indent.repeated depth ++ line
    origin := some path }

/-- The lines of the file that a directive names.  In debug mode they stand between two internal
comments. -/
def includeLines (r : SourceReader) (name : Text) (depth : Nat) :
    Except TemplateError (List OriginLine) :=
  let path := r.includePath name
  if r.files.isFile path then
    match r.files.readText path with
    | .ok content =>
      let lines := fileLines content
      let lines : List Text :=
        if r.settings.debug then
          ("// Begin file " ++ path) :: lines ++ ["// End file " ++ path]
        else lines
      .ok (lines.map (r.placeLine path depth))
    | .error cause => .error (.unreadable path cause)
  else .error (.sourceNotFound path)

/-- A depth override that is in force. -/
structure Override where
  /-- How many levels lines are pushed. -/
  levels : Nat
  /-- The depth of the line that has it; deeper lines are pushed too. -/
  depth : Nat
  deriving Repr, DecidableEq

/-- Go through lines once, resolving their directives. -/
def resolveOnce (r : SourceReader) :
    Override → List OriginLine → Except TemplateError (List OriginLine)
  | _, [] => .ok []
  | force, line :: rest =>
    if Text.isBlankText line.text then do
      let rest ← r.resolveOnce force rest
      return line :: rest
    else
      let depth := r.settings.indent.depth line.text
      let force : Override := if depth ≤ force.depth then ⟨0, 0⟩ else force
      let (text, force) : Text × Override :=
        match depthOverride? line.text with
        | some (text, levels) => (text, ⟨levels, depth⟩)
        | none => (line.text, force)
      match staticInclude? text with
      | some name => do
        let body ← r.includeLines name (depth + force.levels)
        let rest ← r.resolveOnce force rest
        return body ++ rest
      | none => do
        let rest ← r.resolveOnce force rest
        return { line with text := r.settings.indent.repeated force.levels ++ text } :: rest

/-- Resolve directives pass by pass, at most `passes` times. -/
def resolve (r : SourceReader) : Nat → List OriginLine → Except TemplateError (List OriginLine)
  | passes, lines =>
    if !lines.any hasDirective then .ok lines
    else
      match passes with
      | 0 => .error (.cyclicInclude r.settings.maxPasses)
      | passes + 1 => do
        let lines ← r.resolveOnce ⟨0, 0⟩ lines
        r.resolve passes (joinContinuations lines)

/-- The lines of a source, with all directives resolved. -/
def lines (r : SourceReader) (source : Text) : Except TemplateError (List OriginLine) :=
  r.resolve r.settings.maxPasses
    (joinContinuations ((rawLines source).map fun text => ⟨text, none⟩))

end SourceReader

end Offside
