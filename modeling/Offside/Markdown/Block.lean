import Offside.Markdown.Inline

/-!
# Blocks of marked up text

A text is a sequence of blocks: headings, paragraphs, bullet lists, blocks of code that are indented
by four columns, and rules.  A blank line ends a paragraph.  An item of a list holds blocks itself;
a list without blank lines is tight, and the paragraphs of its items are written bare.
-/

namespace Offside.Markdown

/-- A block of a text. -/
inductive Block where
  | heading (level : Nat) (content : Text)
  | paragraph (content : Text)
  | code (content : Text)
  | rule
  | bullets (isTight : Bool) (items : List (List Block))

/-! ## Columns -/

/-- Whether a line holds nothing but spaces and tabs. -/
def isEmptyLine (line : Text) : Bool := line.all fun c => c == ' ' || c == '\t'

/-- The width of the indentation of a line that starts in a column; tabs reach to the next multiple
of four. -/
def indentWidth (column : Nat) : Text → Nat
  | ' ' :: rest => indentWidth (column + 1) rest
  | '\t' :: rest => indentWidth (column + 4 - column % 4) rest
  | _ => column

/-- Take `count` columns of indentation off a line that starts in a column.  A tab that reaches
further leaves spaces. -/
def dropColumns (count column : Nat) : Text → Text
  | ' ' :: rest => if column < count then dropColumns count (column + 1) rest else ' ' :: rest
  | '\t' :: rest =>
    let next := column + 4 - column % 4
    if count ≤ column then '\t' :: rest
    else if next ≤ count then dropColumns count next rest
    else List.replicate (next - count) ' ' ++ rest
  | t => t

/-- Whether a line is indented as code. -/
def isCodeLine (line : Text) : Bool := !isEmptyLine line && 4 ≤ indentWidth 0 line

/-- A line without spaces and tabs at its beginning. -/
def content (line : Text) : Text := line.dropWhile fun c => c == ' ' || c == '\t'

/-! ## Beginnings of blocks -/

/-- The heading on a line: its level and its text.  Number signs at the end are dropped. -/
def heading? (line : Text) : Option (Nat × Text) :=
  let marks := (content line).takeWhile (· == '#')
  let rest := (content line).dropWhile (· == '#')
  if marks.isEmpty || 6 < marks.length || isCodeLine line then none
  else if !rest.isEmpty && rest.head? != some ' ' && rest.head? != some '\t' then none
  else
    let title := Text.trim rest
    let bare := Text.dropEndWhile (· == '#') title
    let isClosed := bare.isEmpty || bare.getLast? == some ' ' || bare.getLast? == some '\t'
    some (marks.length, if isClosed then Text.trim bare else title)

/-- Whether a line is a rule: three or more stars, dashes or underscores. -/
def isRule (line : Text) : Bool :=
  let marks := line.filter fun c => c != ' ' && c != '\t'
  !isCodeLine line && 3 ≤ marks.length &&
    ['*', '-', '_'].any fun mark => marks.all (· == mark)

/-- The bullet on a line: its mark, the width of the bullet and the spaces around it, and the line
after it. -/
def bullet? (line : Text) : Option (Char × Nat × Text) :=
  if isCodeLine line || isRule line then none
  else
    let indent := indentWidth 0 line
    match content line with
    | mark :: rest =>
      if mark != '-' && mark != '*' && mark != '+' then none
      else if isEmptyLine rest then some (mark, indent + 2, [])
      else
        let width := indentWidth (indent + 1) rest - (indent + 1)
        if width = 0 then none
        else
          let offset := indent + 1 + (if width ≤ 4 then width else 1)
          some (mark, offset, dropColumns offset (indent + 1) rest)
    | [] => none

/-- The level of the heading that a line makes of the paragraph above it. -/
def underline? (line : Text) : Option Nat :=
  let marks := Text.trim line
  if isCodeLine line || marks.isEmpty then none
  else if marks.all (· == '=') then some 1
  else if marks.all (· == '-') then some 2
  else none

/-- Whether a line ends the paragraph above it. -/
def interrupts (line : Text) : Bool :=
  isEmptyLine line || (heading? line).isSome || isRule line ||
    (bullet? line).any fun (_, _, rest) => !isEmptyLine rest

/-! ## Reading -/

/-- The lines that go on with a paragraph, and the level if they make it a heading. -/
def paragraphLines : List Text → List Text × Option Nat × List Text
  | [] => ([], none, [])
  | line :: rest =>
    match underline? line with
    | some level => ([], some level, rest)
    | none =>
      if interrupts line then ([], none, line :: rest)
      else
        let (more, level, rest) := paragraphLines rest
        (content line :: more, level, rest)

/-- The lines of a list item after its first, without the indentation of the item.  `afterBlank`
tells whether a blank line stands before. -/
def itemLines (offset : Nat) (afterBlank : Bool) : List Text → List Text × List Text
  | [] => ([], [])
  | line :: rest =>
    if isEmptyLine line then
      let (more, rest) := itemLines offset true rest
      ([] :: more, rest)
    else if offset ≤ indentWidth 0 line then
      let (more, rest) := itemLines offset false rest
      (dropColumns offset 0 line :: more, rest)
    else if afterBlank || interrupts line || (bullet? line).isSome then ([], line :: rest)
    else
      let (more, rest) := itemLines offset false rest
      (content line :: more, rest)

/-- Lines without the blank ones at their end. -/
def dropBlankEnd (lines : List Text) : List Text := (lines.reverse.dropWhile isEmptyLine).reverse

/-- The items of a list with the given mark: the lines of each, whether blank lines stand between
items, and what follows.  `steps` bounds the number of items. -/
def itemsOf (mark : Char) : Nat → List Text → List (List Text) × Bool × List Text
  | 0, lines => ([], false, lines)
  | _, [] => ([], false, [])
  | steps + 1, line :: rest =>
    match bullet? line with
    | some (found, offset, first) =>
      if found != mark then ([], false, line :: rest)
      else
        let (body, rest) := itemLines offset false rest
        let lines := dropBlankEnd (first :: body)
        let (items, isLoose, after) := itemsOf mark steps rest
        let hasGap := lines.length < body.length + 1 && !items.isEmpty
        (lines :: items, isLoose || hasGap, after)
    | none => ([], false, line :: rest)

/-- The blocks of some lines, and whether blank lines stand between two of them.  `steps` bounds the
number of steps. -/
def blocksOf : Nat → List Text → List Block × Bool
  | 0, _ => ([], false)
  | _, [] => ([], false)
  | steps + 1, line :: rest =>
    let join (block : Block) (rest : List Text) : List Block × Bool :=
      let (more, gaps) := blocksOf steps rest
      (block :: more, gaps || ((rest.head?.any isEmptyLine) && !more.isEmpty))
    if isEmptyLine line then blocksOf steps rest
    else if isCodeLine line then
      let run := (line :: rest).takeWhile fun line => isEmptyLine line || isCodeLine line
      let lines := dropBlankEnd run
      let text := (lines.map (dropColumns 4 0)).flatMap fun line => line ++ ['\n']
      join (.code text) ((line :: rest).drop lines.length)
    else
      match heading? line with
      | some (level, title) => join (.heading level title) rest
      | none =>
        if isRule line then join .rule rest
        else
          match bullet? line with
          | some (mark, _, _) =>
            let (items, isLoose, after) := itemsOf mark (rest.length + 1) (line :: rest)
            let read := items.map (blocksOf steps)
            join (.bullets (!isLoose && !read.any (·.2)) (read.map (·.1))) after
          | none =>
            let (more, level, after) := paragraphLines rest
            let text := Text.trimEnd (Text.join "\n" (content line :: more))
            match level with
            | some level => join (.heading level text) after
            | none => join (.paragraph text) after

/-! ## Writing -/

/-- End the line that is being written, if there is one. -/
def freshLine (written : Text) : Text :=
  if written.isEmpty || written.getLast? == some '\n' then written else written ++ "\n"

mutual

/-- Write a block. -/
def Block.render : Block → Text
  | .heading level title =>
    let tag := 'h' :: Text.ofNat level
    "<" ++ tag ++ ">" ++ renderInline title ++ "</" ++ tag ++ ">\n"
  | .paragraph t => "<p>" ++ renderInline t ++ "</p>\n"
  | .code t => "<pre><code>" ++ escape t ++ "</code></pre>\n"
  | .rule => "<hr />\n"
  | .bullets isTight items => "<ul>\n" ++ renderItems isTight items ++ "</ul>\n"

/-- Write the items of a list. -/
def renderItems (isTight : Bool) : List (List Block) → Text
  | [] => []
  | item :: rest => renderItem isTight "<li>" item ++ "</li>\n" ++ renderItems isTight rest

/-- Write the blocks of an item after what is written of it already. -/
def renderItem (isTight : Bool) (written : Text) : List Block → Text
  | [] => written
  | .paragraph t :: rest =>
    if isTight then renderItem isTight (written ++ renderInline t) rest
    else renderItem isTight (freshLine written ++ "<p>" ++ renderInline t ++ "</p>\n") rest
  | block :: rest => renderItem isTight (freshLine written ++ block.render) rest

end

/-- Write a marked up text as markup. -/
def render (source : Text) : Text :=
  let lines := Text.splitOn '\n' source
  (blocksOf (source.length + lines.length + 1) lines).1.flatMap Block.render

end Offside.Markdown
