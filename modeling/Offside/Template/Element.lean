import Offside.Settings.Basic
import Offside.Table
import Offside.Template.Error
import Offside.Template.Head
import Offside.Template.Literal

/-!
# Elements

What an element line says: the tag, the attributes, and the content.  The tokens of the head can
come in any order; the last tag, the last id and the last target count, and all classes are put
together. Attributes are written in the order of their names.

What a target becomes depends on the tag: the address of a link, the source of a script or of an
image.  A target with an equals sign names something: a value like that of an option for a link, a
name below the directory of scripts or images for the others.
-/

namespace Offside

/-- An element of a template. -/
structure Element where
  tag : Text
  attributes : Table Text
  /-- The expression whose attributes are added when the template is rendered. -/
  object : Option Text
  content : Text
  /-- Whether it is written as one tag that has no content. -/
  selfClosing : Bool
  deriving Repr, DecidableEq

/-- The tags that never have content. -/
def selfClosingTags : List Text := ["br", "hr", "link", "meta", "img", "input"]

/-- The tags whose content is not indented. -/
def preformattedTags : List Text := ["pre", "textarea"]

/-- What follows the first equals sign of a target. -/
def namedTarget? (written : Text) : Option Text :=
  (Text.splitOnce? '=' written).map fun (_, name) => Text.trim name

/-- The address that a target stands for, where names are put behind `root`. -/
def targetAddress (root written : Text) : Text :=
  match namedTarget? written with
  | some name => root ++ renderValue name
  | none => written

/-- Put a target into the attributes of a tag.  Only links, scripts and images have one. -/
def applyTarget (settings : TemplateSettings) (tag written : Text) (attributes : Table Text) :
    Table Text :=
  if tag == "a" || tag == "link" then
    Table.insert "href" (targetAddress [] written) attributes
  else if tag == "script" then
    Table.insert "type" "text/javascript"
      (Table.insert "src" (targetAddress settings.scriptRoot written) attributes)
  else if tag == "img" then
    let attributes := Table.insert "src" (targetAddress settings.imageRoot written) attributes
    if Table.has attributes "alt" then attributes else Table.insert "alt" [] attributes
  else attributes

/-- The content of an element, as it is written. -/
def elementContent (settings : TemplateSettings) (isExpression isTranslated : Bool)
    (content : Text) : Text :=
  if !settings.embedCode then if isExpression then [] else content
  else if isTranslated then
    let argument := if isExpression then content else quoteLiteral content
    outputMarks (settings.translateFunction ++ "(text=" ++ argument ++ ")")
  else if isExpression && !content.isEmpty then outputMarks content
  else content

namespace Element

/-- The attributes that the options and the tokens of a head give. -/
def attributesOf (settings : TemplateSettings) (tag : Text) (groups : List Text)
    (tokens : List HeadToken) : Table Text :=
  let options := (groups.flatMap readOptions).map fun (name, value) => (name, renderValue value)
  let attributes := Table.ofList options
  let attributes :=
    match (tokens.filterMap HeadToken.id?).getLast? with
    | some id => Table.insert "id" id attributes
    | none => attributes
  let classes := tokens.filterMap HeadToken.className?
  let attributes :=
    if classes.isEmpty then attributes else Table.insert "class" (Text.join " " classes) attributes
  match (tokens.filterMap HeadToken.target?).getLast? with
  | some written => applyTarget settings tag written attributes
  | none => attributes

/-- The element with the given parts. -/
def ofParts (settings : TemplateSettings) (parts : ElementParts) : Element :=
  let tokens := HeadToken.tokens parts.head
  let last := tokens.getLast?
  let tag := (tokens.filterMap HeadToken.tag?).getLast?.getD "div"
  { tag := tag
    attributes := attributesOf settings tag parts.groups tokens
    object :=
      if settings.embedCode then (tokens.filterMap HeadToken.object?).getLast? else none
    content :=
      elementContent settings (tokens.contains .expression) (last == some .translate) parts.content
    selfClosing := last == some .selfClose || selfClosingTags.contains tag }

/-- The element on a line. -/
def ofLine (settings : TemplateSettings) (number : Nat) (line : Text) :
    Except TemplateError Element :=
  match ElementParts.ofLine? line with
  | some parts => .ok (ofParts settings parts)
  | none => .error (.unclosedOptions number line)

/-- Whether the content is not indented. -/
def isPreformatted (e : Element) : Bool := preformattedTags.contains e.tag

/-- An attribute in a tag. -/
def attributeText (name value : Text) : Text := " " ++ name ++ "=\"" ++ value ++ "\""

/-- The tag that opens the element, without its closing bracket. -/
def openTag (e : Element) : Text :=
  let object : Text :=
    match e.object with
    | some code => outputMarks ("object_attributes(value=" ++ code ++ ")")
    | none => []
  "<" ++ e.tag ++ e.attributes.flatMap (fun (name, value) => attributeText name value) ++ object

/-- The tag that closes the element. -/
def closeTag (e : Element) : Text := "</" ++ e.tag ++ ">"

end Element

end Offside
