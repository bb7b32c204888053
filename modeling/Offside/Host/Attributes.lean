import Offside.Json.Basic
import Offside.Text.Case

/-!
# Functions of a template

Two functions that every template can call.  One writes the attributes of an object: its type as a
class, and the type with its number or name as an id.  The other stands in for a translation and
returns the text it is given.
-/

namespace Offside

/-- Write a name in lower case with underscores, given what is written of it already: `BlogPost` and
`blog-post` are both `blog_post`. -/
def snakeCaseAfter (written : Text) : Text → Text
  | [] => written
  | c :: rest =>
    if Text.isUpper c then
      let gap : Text := if written.isEmpty || written.getLast? == some '_' then [] else "_"
      snakeCaseAfter (written ++ gap ++ Text.lowerOfUpper c) rest
    else if c == '-' || c == ' ' then snakeCaseAfter (written ++ "_") rest
    else snakeCaseAfter (written ++ [c]) rest

/-- Write a name in lower case with underscores. -/
def snakeCase (name : Text) : Text := snakeCaseAfter [] name

/-- What identifies an object within its type. -/
def identifierText? : Json → Option Text
  | .string id => some id
  | .number id => some id.text
  | _ => none

/-- The attributes of a value: those of an object that has a type. -/
def attributesOfValue (value : Json) : Text :=
  match value.asFields? with
  | none => []
  | some fields =>
    match (Table.get? fields "type").bind Json.asText? with
    | none => []
    | some kind =>
      let className := snakeCase kind
      let id : Text :=
        match (Table.get? fields "id").bind identifierText? with
        | some id => " id=\"" ++ className ++ "_" ++ id ++ "\""
        | none => []
      " class=\"" ++ className ++ "\"" ++ id

/-- The function that writes the attributes of an object. -/
def objectAttributes (arguments : Fields) : Except Text Json :=
  match Table.get? arguments "value" with
  | some value => .ok (.string (attributesOfValue value))
  | none => .error "object_attributes requires a \x60value\x60 argument"

/-- The function that translates a text to itself. -/
def identityTranslation (arguments : Fields) : Except Text Json :=
  .ok ((Table.get? arguments "text").getD (.string []))

end Offside
