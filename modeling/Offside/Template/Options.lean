import Offside.Text.Blank

/-!
# Options of an element

A group of options gives values to attributes: `{:title => 'Home, sweet home', :rel => nofollow}`.
Options stand between commas, and a comma between quotes separates nothing.  A value that begins
with a dollar sign is an expression and is written between the marks of one; any other is literal
and loses the quotes around it.
-/

namespace Offside

/-- Cut a text at each `separator` that does not stand between quotes.  The first argument is the
quote that is open. -/
def splitUnquoted (separator : Char) : Option Char → Text → List Text
  | _, [] => [[]]
  | openQuote, c :: rest =>
    let extend (openQuote : Option Char) : List Text :=
      match splitUnquoted separator openQuote rest with
      | [] => [[c]]
      | piece :: pieces => (c :: piece) :: pieces
    match openQuote with
    | some mark => extend (if c == mark then none else openQuote)
    | none =>
      if c == '\'' || c == '"' then extend (some c)
      else if c == separator then [] :: splitUnquoted separator none rest
      else extend none

/-- Drop the colons at both ends of a text. -/
def trimColons (t : Text) : Text := Text.dropEndWhile (· == ':') (t.dropWhile (· == ':'))

/-- Cut an option at its first arrow; without one the value is empty. -/
def splitArrow : Text → Text × Text
  | [] => ([], [])
  | '=' :: '>' :: value => ([], value)
  | c :: rest => (c :: (splitArrow rest).1, (splitArrow rest).2)

/-- The name and the value of an option. -/
def readOption (option : Text) : Text × Text :=
  let (name, value) := splitArrow option
  (trimColons (Text.trim name), trimColons (Text.trim value))

/-- The options of a group, in order; those without a name are passed over. -/
def readOptions (group : Text) : List (Text × Text) :=
  (((splitUnquoted ',' none group).filter fun option => !Text.isBlankText option).map
    readOption).filter fun (name, _) => !name.isEmpty

/-- What stands between two quotes of the given kind. -/
def betweenQuotes? (mark : Char) (t : Text) : Option Text :=
  match t with
  | first :: second :: rest =>
    if first == mark && (second :: rest).getLast? == some mark then some (second :: rest).dropLast
    else none
  | _ => none

/-- An expression, with the marks that have its value written. -/
def outputMarks (code : Text) : Text := "\x7b\x7b " ++ code ++ " \x7d\x7d"

/-- How a value is written into an attribute. -/
def renderValue (value : Text) : Text :=
  match Text.trim value with
  | '$' :: code => outputMarks (Text.trim code)
  | literal =>
    match betweenQuotes? '\'' literal with
    | some inner => inner
    | none => (betweenQuotes? '"' literal).getD literal

end Offside
