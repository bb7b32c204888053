import Offside.Registry
import Offside.Template.Doctype
import Offside.Template.Element
import Offside.Template.Node
import Offside.Text.Word

/-!
# The code of a template

The outline of a template is written as markup with host code in it: `{{ expression }}` writes a
value, `{% code %}` is an instruction.

Each level of the outline is indented by two spaces.  An element with something below it is opened
and closed on lines of its own, any other stands on one line.  What stands below a block instruction
is written one level less deep, as if the instruction was not there, and so are the elements below
that. Inside of preformatted elements nothing is indented.

A block is closed with the keyword that opened it.  An `else` or `elif` goes on with the block
before it, so the tag that closed that block is dropped in the end (`joinBranches`).
-/

namespace Offside

/-- What a text block does with the lines below it, or why it cannot. -/
abbrev TextBlock := Text → Except Text Text

/-! ## Layout -/

/-- The layout that a line takes over from the line above it. -/
structure Scope where
  /-- Not so inside of preformatted elements. -/
  canIndent : Bool
  /-- Whether the line stands below a block instruction, or below an element that does. -/
  inBlock : Bool
  deriving Repr, DecidableEq

namespace Scope

/-- The layout of the outermost lines. -/
def outermost : Scope := ⟨true, false⟩

end Scope

/-- Where a line stands in the outline. -/
structure Place where
  depth : Nat
  /-- The kinds of the lines before it on the same level and below the same line, the nearest
  first. -/
  before : List TemplateLine
  isLast : Bool
  deriving Repr, DecidableEq

namespace Place

/-- Whether a line is the first of those on its level. -/
def isFirst (p : Place) : Bool := p.before.isEmpty

end Place

/-- Indent every line of a text.  Where nothing is indented, markup is written as it is, and text
only ends its line. -/
def indentText (canIndent : Bool) (level : Nat) (newline : Bool) (t : Text) : Text :=
  if canIndent then
    let ending : Text := if newline then "\n" else []
    (Text.splitOn '\n' t).flatMap fun line => Text.times level "  " ++ line ++ ending
  else if Text.startsWith "<" t then t
  else t ++ "\n"

/-! ## One line -/

/-- What is written for a line, around what is written for the lines below it. -/
structure LineCode where
  /-- What a line is marked with in debug mode. -/
  mark : Text
  opening : Text
  body : Text
  closing : Text
  /-- The layout of the lines below it. -/
  scope : Scope
  deriving Repr, DecidableEq

/-- What the code of a template is written from. -/
structure CodeWriter where
  settings : TemplateSettings
  blocks : Registry TextBlock
  lines : List OriginLine

namespace CodeWriter

/-- The mark of a line in debug mode: its number, and the file it came from. -/
def debugMark (w : CodeWriter) (node : TemplateNode) : Text :=
  if !w.settings.debug then []
  else
    match node.origin with
    | some path => Text.ofNat node.line ++ " (" ++ path ++ "):\t"
    | none => Text.ofNat node.line ++ ":\t"

/-- Text, or the value of an expression.  When white space is collapsed, neighbours share a line. -/
def textCode (w : CodeWriter) (scope : Scope) (place : Place) (t : Text) : Text :=
  if scope.canIndent && w.settings.collapseWhitespace then
    match place.isFirst, place.isLast with
    | true, true => indentText true place.depth true t
    | true, false => indentText true place.depth false t ++ " "
    | false, true => t ++ "\n"
    | false, false => t ++ " "
  else indentText scope.canIndent place.depth true t

/-- An element. -/
def elementCode (w : CodeWriter) (scope : Scope) (place : Place) (hasChildren : Bool)
    (mark : Text) (element : Element) : LineCode :=
  let level := if scope.inBlock then place.depth - 1 else place.depth
  let opening := element.openTag ++ ">"
  let closing := element.closeTag
  if element.selfClosing then
    ⟨mark, indentText scope.canIndent level true (element.openTag ++ " />"), [], [], scope⟩
  else if element.isPreformatted then
    let body := if element.content.isEmpty then [] else indentText false 0 true element.content
    ⟨mark, indentText false 0 false opening, body, closing ++ "\n",
      { scope with canIndent := false }⟩
  else if hasChildren then
    let inner := if scope.inBlock then place.depth else place.depth + 1
    let body :=
      if element.content.isEmpty then []
      else indentText scope.canIndent inner true (wrapWords w.settings.wrapWidth element.content)
    ⟨mark, indentText scope.canIndent level true opening, body,
      indentText scope.canIndent level true closing, scope⟩
  else if !scope.canIndent then
    ⟨mark, "\n" ++ opening, element.content, closing ++ "\n", scope⟩
  else if w.settings.collapseWhitespace then
    ⟨mark, if place.isFirst then indentText true place.depth false opening else opening,
      element.content, closing ++ (if place.isLast then "\n" else " "), scope⟩
  else ⟨mark, indentText true level false opening, element.content, closing ++ "\n", scope⟩

/-- A comment of the output. -/
def commentCode (scope : Scope) (place : Place) (hasChildren : Bool) (mark : Text)
    (condition : Option Text) (t : Text) : LineCode :=
  let (opening, closing) : Text × Text :=
    match condition with
    | some condition => ("<!--[" ++ condition ++ "]>", "<![endif]-->")
    | none => ("<!--", "-->")
  let below : Scope := ⟨scope.canIndent, false⟩
  if hasChildren then
    let body := if t.isEmpty then [] else indentText scope.canIndent (place.depth + 1) true t
    ⟨mark, indentText scope.canIndent place.depth true opening, body,
      indentText scope.canIndent place.depth true closing, below⟩
  else
    ⟨mark, indentText scope.canIndent place.depth false (opening ++ " "), t,
      " " ++ closing ++ "\n", below⟩

/-- The keyword of the block that a line goes on with: the nearest line before it that opened one.
-/
def openerBefore : List TemplateLine → Text
  | [] => "if"
  | .instruction code :: before =>
    match BlockKeyword.ofCode? code with
    | none => "if"
    | some keyword => if keyword.continues then openerBefore before else keyword.text
  | _ :: before => openerBefore before

/-- The keyword that closes the block of an instruction. -/
def opener (place : Place) (keyword : BlockKeyword) : Text :=
  if keyword.continues then openerBefore place.before else keyword.text

/-- An instruction between its marks. -/
def instructionMarks (code : Text) : Text := "\x7b% " ++ code ++ " %\x7d"

/-- An instruction as it is written: `elseif` is spelled `elif`. -/
def instructionText (keyword : BlockKeyword) (code : Text) : Text :=
  if keyword = .elseifTest then "elif" ++ code.drop keyword.text.length else code

/-- An instruction. -/
def instructionCode (scope : Scope) (place : Place) (mark : Text) (line : Nat) (code : Text) :
    Except TemplateError LineCode :=
  match BlockKeyword.ofCode? code with
  | none => .ok ⟨mark, instructionMarks code, [], [], ⟨scope.canIndent, false⟩⟩
  | some keyword =>
    if keyword.isSupported then
      let opened := instructionMarks (instructionText keyword code)
      .ok ⟨if keyword.continues then [] else mark, opened, [],
        instructionMarks ("end" ++ opener place keyword), ⟨scope.canIndent, true⟩⟩
    else .error (.unsupportedInstruction line keyword.text)

/-- The raw lines below a text block, without the indentation that they have from standing there. -/
def blockSource (w : CodeWriter) (node : TemplateNode) : Text :=
  let unit := w.settings.indent
  match w.lines[node.line - 1]? with
  | none => []
  | some own =>
    let base := unit.depth own.text
    let below := (w.lines.drop node.line).takeWhile fun line =>
      Text.isBlankText line.text || base < unit.depth line.text
    let body := below.map fun line => unit.strip (base + 1) line.text
    Text.join "\n" (body.reverse.dropWhile Text.isBlankText).reverse

/-- A text block. -/
def textBlockCode (w : CodeWriter) (scope : Scope) (place : Place) (node : TemplateNode)
    (name : Text) : Except TemplateError Text :=
  match w.blocks.get? name with
  | none => .error (.unknownTextBlock node.line name)
  | some transform =>
    match transform (w.blockSource node) with
    | .error cause => .error (.textBlockFailed node.line name cause)
    | .ok output =>
      let output := Text.dropEndWhile (· == '\n') output
      .ok (if output.isEmpty then [] else indentText scope.canIndent place.depth true output)

/-- The code that includes a template when this one is rendered. -/
def includeCode (w : CodeWriter) (place : Place) (code : Text) : Text :=
  if w.settings.embedCode then
    outputMarks ("include(name=" ++ code ++ ", indent=" ++ Text.ofNat place.depth ++ ")")
  else []

/-- The code of an expression. -/
def expressionCode (w : CodeWriter) (scope : Scope) (place : Place) (code : Text) : Text :=
  if w.settings.embedCode then w.textCode scope place (outputMarks code) else "\n"

/-- What is written for a line, if anything is written for it and the lines below it. -/
def lineCode (w : CodeWriter) (scope : Scope) (place : Place) (hasChildren : Bool)
    (node : TemplateNode) : Except TemplateError (Option LineCode) :=
  let mark := w.debugMark node
  let only (body : Text) : LineCode := ⟨mark, [], body, [], ⟨scope.canIndent, false⟩⟩
  match node.kind with
  | .dynamicInclude code => return some (only (w.includeCode place code))
  | .doctype kind => return some (only (doctype kind ++ "\n"))
  | .internalComment => return none
  | .instruction code =>
    if w.settings.embedCode then return some (← instructionCode scope place mark node.line code)
    else return none
  | .textBlock name => return some (only (← w.textBlockCode scope place node name))
  | .expression code => return some (only (w.expressionCode scope place code))
  | .comment condition t => return some (commentCode scope place hasChildren mark condition t)
  | .element line =>
    return some (w.elementCode scope place hasChildren mark
      (← Element.ofLine w.settings node.line line))
  | .text content => return some (only (w.textCode scope place content))

/-! ## The whole outline -/

mutual

/-- The code of a line and the lines below it. -/
def treeCode (w : CodeWriter) (scope : Scope) (place : Place) :
    OutlineTree TemplateNode → Except TemplateError Text
  | .node _ node children => do
    match ← w.lineCode scope place (!children.isEmpty) node with
    | none => return []
    | some code =>
      let inner ← w.forestCode code.scope (place.depth + 1) [] children
      let again := if code.closing.isEmpty || children.isEmpty then [] else code.mark
      return code.mark ++ code.opening ++ code.body ++ inner ++ again ++ code.closing

/-- The code of lines on one level, `before` being the kinds of those before them. -/
def forestCode (w : CodeWriter) (scope : Scope) (depth : Nat) (before : List TemplateLine) :
    List (OutlineTree TemplateNode) → Except TemplateError Text
  | [] => return []
  | tree :: rest => do
    let here ← w.treeCode scope ⟨depth, before, rest.isEmpty⟩ tree
    let after ← w.forestCode scope depth (tree.data.kind :: before) rest
    return here ++ after

end

end CodeWriter

/-! ## Branches of a block -/

/-- Whether a text begins with an `else` or `elif` instruction. -/
def startsBranch (t : Text) : Bool :=
  ["\x7b% else", "\x7b% elif"].any fun (start : String) =>
    match Text.dropPrefix? start.toList t with
    | some rest => !rest.head?.any Text.isWord
    | none => false

/-- What follows the tag that closes a block, if that is a further branch of the block. -/
def branchAfterEnd? (t : Text) : Option Text :=
  match Text.dropPrefix? "\x7b% end" t with
  | none => none
  | some rest =>
    if (rest.takeWhile Text.isWord).isEmpty then none
    else
      match Text.dropPrefix? " %\x7d" (rest.dropWhile Text.isWord) with
      | none => none
      | some rest => if startsBranch (Text.trimStart rest) then some (Text.trimStart rest) else none

/-- What follows a known beginning is shorter by it. -/
theorem length_of_dropPrefix? {start t rest : Text} (h : Text.dropPrefix? start t = some rest) :
    start.length + rest.length = t.length := by
  induction start generalizing t with
  | nil => simp_all [Text.dropPrefix?]
  | cons p ps ih =>
    cases t with
    | nil => simp [Text.dropPrefix?] at h
    | cons c cs =>
      by_cases hc : p = c
      · simp only [Text.dropPrefix?, hc, ↓reduceIte] at h
        have := ih h
        simp only [List.length_cons]
        omega
      · simp [Text.dropPrefix?, hc] at h

/-- A further branch is shorter than the text from the tag before it on. -/
theorem length_of_branchAfterEnd? {t rest : Text} (h : branchAfterEnd? t = some rest) :
    rest.length < t.length := by
  unfold branchAfterEnd? at h
  split at h
  · contradiction
  · next opened hopened =>
    split at h
    · contradiction
    · split at h
      · contradiction
      · next closed hclosed =>
        split at h
        · have first := length_of_dropPrefix? hopened
          have second := length_of_dropPrefix? hclosed
          have third : (opened.dropWhile Text.isWord).length ≤ opened.length :=
            (List.dropWhile_suffix _).length_le
          have fourth := length_trimStart_le closed
          have fifth : "\x7b% end".toList.length = 6 := rfl
          obtain rfl := Option.some.inj h
          omega
        · contradiction

/-- Drop every tag that closes a block which a further branch goes on with, and the white space
after it. -/
def joinBranches (t : Text) : Text :=
  match t with
  | [] => []
  | c :: rest =>
    match _found : branchAfterEnd? (c :: rest) with
    | some branch => joinBranches branch
    | none => c :: joinBranches rest
termination_by t.length
decreasing_by
  · exact length_of_branchAfterEnd? ‹_›
  · simp

/-- The code of a template, from its outline and its lines. -/
def templateCode (settings : TemplateSettings) (blocks : Registry TextBlock)
    (outline : TemplateOutline) (lines : List OriginLine) : Except TemplateError Text := do
  let w : CodeWriter := ⟨settings, blocks, lines⟩
  let code ← w.forestCode .outermost 0 [] outline.trees
  return joinBranches code

end Offside
