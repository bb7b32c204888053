import Offside.Files.Store
import Offside.Indent

/-!
# Settings

The settings of the two compilers, with the values they have when nothing else is asked for, and
where compiled output is kept: in the directory that is set, or below the directory for temporary
files.
-/

namespace Offside

/-- The settings of the stylesheet compiler. -/
structure StyleSettings where
  /-- The name of the output style. -/
  style : Text
  indent : IndentUnit
  /-- Whether compiled output is kept and used again. -/
  cache : Bool
  cacheExtension : Text
  cacheDirectory : Option FilePath
  deriving Repr, DecidableEq

namespace StyleSettings

/-- The settings when nothing else is asked for. -/
def standard : StyleSettings where
  style := "nested"
  indent := .spaces 2
  cache := false
  cacheExtension := "css"
  cacheDirectory := none

/-- Where compiled output is kept. -/
def cacheRoot (settings : StyleSettings) (s : FileStore) : FilePath :=
  settings.cacheDirectory.getD (((s.temporary.join "terrace").join "css"))

end StyleSettings

/-- The settings of the template compiler. -/
structure TemplateSettings where
  indent : IndentUnit
  /-- The extension of template files. -/
  sourceExtension : Text
  /-- The extension of compiled templates. -/
  compiledExtension : Text
  cacheDirectory : Option FilePath
  /-- Always compile, and never read or write compiled templates. -/
  noCache : Bool
  /-- Write line numbers into the output, and list the lines at its end. -/
  debug : Bool
  /-- Write neighbouring inline nodes on one line. -/
  collapseWhitespace : Bool
  /-- Drop the white space between tags of rendered output. -/
  compress : Bool
  /-- Write host code; without it only static markup is written. -/
  embedCode : Bool
  /-- The name of the function that translates. -/
  translateFunction : Text
  /-- How often includes and overrides are resolved. -/
  maxPasses : Nat
  /-- How many bytes a line of block content has before it is wrapped. -/
  wrapWidth : Nat
  /-- What the name of a script is put behind. -/
  scriptRoot : Text
  /-- What the name of an image is put behind. -/
  imageRoot : Text
  deriving Repr, DecidableEq

namespace TemplateSettings

/-- The settings when nothing else is asked for. -/
def standard : TemplateSettings where
  indent := .tab
  sourceExtension := "haml"
  compiledExtension := "tpl"
  cacheDirectory := none
  noCache := false
  debug := false
  collapseWhitespace := false
  compress := false
  embedCode := true
  translateFunction := "translate"
  maxPasses := 32
  wrapWidth := 60
  scriptRoot := "/js/"
  imageRoot := "/img/"

/-- Where compiled templates are kept. -/
def cacheRoot (settings : TemplateSettings) (s : FileStore) : FilePath :=
  settings.cacheDirectory.getD (((s.temporary.join "terrace").join "markup"))

end TemplateSettings

end Offside
