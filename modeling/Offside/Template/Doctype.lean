import Offside.Text.Basic

/-!
# Document types

The declaration that `!!! kind` is written as.  A kind that is not known is written as it is.
-/

namespace Offside

/-- A declaration with a public identifier. -/
def publicDoctype (identifier address : Text) : Text :=
  "<!DOCTYPE html PUBLIC \"-//W3C//DTD XHTML " ++ identifier ++
    "//EN\" \"http://www.w3.org/TR/" ++ address ++ ".dtd\">"

/-- The declarations that have a name. -/
def knownDoctypes : List (Text × Text) := [
  ("", publicDoctype "1.1" "xhtml11/DTD/xhtml11"),
  ("1.1", publicDoctype "1.1" "xhtml11/DTD/xhtml11"),
  ("Strict", publicDoctype "1.0 Strict" "xhtml1/DTD/xhtml1-strict"),
  ("Transitional", publicDoctype "1.0 Transitional" "xhtml1/DTD/xhtml1-transitional"),
  ("Frameset", publicDoctype "1.0 Frameset" "xhtml1/DTD/xhtml1-frameset"),
  ("XML", "<?xml version=\"1.0\" encoding=\"utf-8\" ?>"),
  ("5", "<!DOCTYPE html>"),
  ("html", "<!DOCTYPE html>")]

/-- The declaration of a kind of document. -/
def doctype (kind : Text) : Text :=
  (knownDoctypes.lookup kind).getD ("<!DOCTYPE " ++ kind ++ ">")

end Offside
