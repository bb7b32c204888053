import Offside.Text.Blank

/-!
# The lines of a template

Every line is of exactly one kind, told by how it begins once its indentation is gone.  The kinds
are tried in this order, and the first that fits counts:

* `!!= expression` includes another template when this one is rendered.
* `!!! kind` declares the type of the document.
* `// text` is an internal comment: neither it nor what stands below it is written.
* `- code` is an instruction; some instructions open a block around what stands below them.
* `:name` is a text block: what stands below it is the raw input of a named transform.
* `= expression` writes the value of an expression.
* `/ text` is a comment of the output, `/[condition] text` a conditional one.
* `%tag`, `#id`, `.class` and `=` begin an element.
* Anything else is text.
-/

namespace Offside

/-- What a line of a template is. -/
inductive TemplateLine where
  | dynamicInclude (expression : Text)
  | doctype (kind : Text)
  | internalComment
  | instruction (code : Text)
  | textBlock (name : Text)
  | expression (code : Text)
  | comment (condition : Option Text) (text : Text)
  | element (line : Text)
  | text (content : Text)
  deriving Repr, DecidableEq

namespace TemplateLine

/-- The comment that follows a slash. -/
def ofComment (rest : Text) : TemplateLine :=
  let rest := Text.trimStart rest
  match rest with
  | '[' :: inner =>
    match Text.splitOnce? ']' inner with
    | some (condition, after) => comment (some (Text.trim condition)) (Text.trim after)
    | none => comment none (Text.trim rest)
  | _ => comment none (Text.trim rest)

/-- The name of a text block that follows a colon; a colon alone names none. -/
def blockName? : Text → Option Text
  | ':' :: name => if Text.isBlankText name then none else some (Text.trim name)
  | _ => none

/-- Whether a line begins like an element. -/
def startsElement (content : Text) : Bool :=
  match content with
  | c :: _ => c == '%' || c == '#' || c == '.' || c == '='
  | [] => false

/-- The kind of a line that has no indentation. -/
def ofText (content : Text) : TemplateLine :=
  match Text.dropPrefix? "!!= " content with
  | some rest => dynamicInclude (Text.trim rest)
  | none =>
  match Text.dropPrefix? "!!!" content with
  | some kind => doctype (Text.trim kind)
  | none =>
  if Text.startsWith "//" content then internalComment
  else
  match Text.dropPrefix? "- " content with
  | some code => instruction (Text.trim code)
  | none =>
  match blockName? content with
  | some name => textBlock name
  | none =>
  match Text.dropPrefix? "= " content with
  | some code => expression code
  | none =>
  match content with
  | '/' :: rest => ofComment rest
  | _ => if startsElement content then element content else text content

/-- Whether what stands below a line is not compiled: it is the input of a text block, it is
commented out, or it stands below a line that takes nothing. -/
def hidesChildren : TemplateLine → Bool
  | textBlock _ => true
  | internalComment => true
  | dynamicInclude _ => true
  | _ => false

end TemplateLine

/-! ## Block keywords -/

/-- A word that opens a block at the beginning of an instruction. -/
inductive BlockKeyword where
  | ifTest
  | elifTest
  | elseifTest
  | elseBranch
  | forLoop
  | whileLoop
  | switchBlock
  | doBlock
  | filterBlock
  | macroBlock
  | namedBlock
  | rawBlock
  deriving Repr, DecidableEq

namespace BlockKeyword

/-- All block keywords. -/
def all : List BlockKeyword :=
  [ifTest, elifTest, elseifTest, elseBranch, forLoop, whileLoop, switchBlock, doBlock, filterBlock,
    macroBlock, namedBlock, rawBlock]

/-- How a keyword is written. -/
def text : BlockKeyword → Text
  | ifTest => "if"
  | elifTest => "elif"
  | elseifTest => "elseif"
  | elseBranch => "else"
  | forLoop => "for"
  | whileLoop => "while"
  | switchBlock => "switch"
  | doBlock => "do"
  | filterBlock => "filter"
  | macroBlock => "macro"
  | namedBlock => "block"
  | rawBlock => "raw"

/-- Whether the compiled language has a block for the keyword. -/
def isSupported : BlockKeyword → Bool
  | whileLoop => false
  | switchBlock => false
  | doBlock => false
  | _ => true

/-- Whether the keyword goes on with the block before it. -/
def continues : BlockKeyword → Bool
  | elifTest => true
  | elseifTest => true
  | elseBranch => true
  | _ => false

/-- Whether a character is part of the first word of an instruction. -/
def isWordChar (c : Char) : Bool := c.isAlphanum || c == '_'

/-- The first word of an instruction. -/
def firstWord (code : Text) : Text := code.takeWhile isWordChar

/-- The block keyword that an instruction begins with, as a whole word. -/
def ofCode? (code : Text) : Option BlockKeyword :=
  all.find? fun keyword => keyword.text == firstWord code

end BlockKeyword

end Offside
