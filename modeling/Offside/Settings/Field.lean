import Offside.Json.Basic
import Offside.Settings.Basic
import Offside.Text.Digit

/-!
# Settings by key

A setting is given as a data value under the name of its field.  Values are taken generously: a flag
may be written as a word or a number, a number as a text, and a text as a number or a flag.  Lists
and tables never stand for one setting.

The settings of one compiler are a section: a table by key, or a list in the order of the keys.  All
keys have to be there, except for the directory of compiled output.  Keys that name no field, and
what follows the last key of a list, are passed over.
-/

namespace Offside

/-- Why settings could not be put together. -/
inductive SettingsError where
  | missingFile (path : FilePath)
  | unreadableFile (path : FilePath) (cause : FileError)
  | brokenFile (path : FilePath)
  | brokenKey (key : Text)
  | wrongKind (key : Text)
  | badIndent (cause : IndentError)
  | notATable (name : Text)
  | missingKey (name key : Text)
  deriving Repr, DecidableEq

namespace SettingsError

/-- The text of the error. -/
def message : SettingsError → Text
  | missingFile path => "configuration file " ++ Text.quoted path ++ " not found"
  | unreadableFile path cause => path ++ ": " ++ cause.message
  | brokenFile path => path ++ ": the file cannot be read as settings"
  | brokenKey key => "the key " ++ Text.quoted key ++ " cannot be read"
  | wrongKind key => "the value of " ++ Text.quoted key ++ " is of the wrong kind"
  | badIndent cause => cause.message
  | notATable name => "the section " ++ Text.quoted name ++ " is not a table"
  | missingKey name key => "the section " ++ Text.quoted name ++ " has no key " ++ Text.quoted key

end SettingsError

/-! ## One value -/

/-- The words that stand for a truth value. -/
def flagOfWord? (word : Text) : Option Bool :=
  let word := Text.lowerAscii word
  if ["1".toList, "true".toList, "on".toList, "yes".toList].contains word then some true
  else if ["0".toList, "false".toList, "off".toList, "no".toList].contains word then some false
  else none

/-- The truth value that a value stands for. -/
def flagOf? : Json → Option Bool
  | .bool value => some value
  | .number value => some !(value.toFloat == 0)
  | .string word => flagOfWord? word
  | _ => none

/-- The number written in digits, perhaps after a plus sign, if it has at most 64 bits. -/
def countOfDigits? (word : Text) : Option Nat :=
  let digits :=
    match word with
    | '+' :: rest => rest
    | _ => word
  (Text.natValue? digits).filter (· < Text.wordLimit)

/-- The number that a word stands for: one written in digits, or that of a truth value. -/
def countOfWord? (word : Text) : Option Nat :=
  match flagOfWord? word with
  | some flag => some (if flag then 1 else 0)
  | none => countOfDigits? word

/-- The number that a value stands for. -/
def countOf? : Json → Option Nat
  | .bool value => some (if value then 1 else 0)
  | .number (.whole value) => if value < 0 then none else some value.toNat
  | .number (.fraction value) => some (Decimal.roundWhole value).toUInt64.toNat
  | .string word => countOfWord? word
  | _ => none

/-- The text that a value stands for. -/
def wordOf? : Json → Option Text
  | .bool value => some (if value then "true" else "false")
  | .number (.whole value) => some (Text.ofInt value)
  | .number (.fraction value) => some (Decimal.positional value)
  | .string word => some word
  | _ => none

/-- The value of a key, if it is of the right kind. -/
def kindOf {α : Type} (key : Text) (value : Option α) : Except SettingsError α :=
  match value with
  | some value => .ok value
  | none => .error (.wrongKind key)

/-- The unit of indentation that a value stands for. -/
def indentOf (key : Text) (value : Json) : Except SettingsError IndentUnit := do
  let written ← kindOf key (wordOf? value)
  match IndentUnit.ofText written with
  | .ok unit => return unit
  | .error cause => .error (.badIndent cause)

/-- The directory that a value stands for; null stands for none. -/
def directoryOf (key : Text) (value : Json) : Except SettingsError (Option FilePath) :=
  match value with
  | .null => .ok none
  | _ => (kindOf key (wordOf? value)).map some

/-- The value that stands for a directory. -/
def directoryValue : Option FilePath → Json
  | some path => .string path
  | none => .null

/-! ## Sections -/

/-- The key that may be left out. -/
def optionalKey : Text := "cache_dir"

/-- The values that a section gives to keys. -/
def sectionValues (name : Text) (keys : List Text) :
    Option Json → Except SettingsError (List (Text × Json))
  | some (.object fields) => .ok fields
  | some (.array items) => .ok (keys.zip items)
  | _ => .error (.notATable name)

/-- Check that all keys are given but the one that may be left out. -/
def requireKeys (name : Text) (keys : List Text) (given : List (Text × Json)) :
    Except SettingsError Unit :=
  match keys.find? fun key => key != optionalKey && !Table.has given key with
  | some key => .error (.missingKey name key)
  | none => .ok ()

/-! ## The fields -/

namespace StyleSettings

/-- Set the field of a key. -/
def set (s : StyleSettings) (key : Text) (value : Json) : Except SettingsError StyleSettings := do
  let word := kindOf key (wordOf? value)
  if key == "style" then return { s with style := ← word }
  else if key == "indent" then return { s with indent := ← indentOf key value }
  else if key == "cache" then return { s with cache := ← kindOf key (flagOf? value) }
  else if key == "cache_extension" then return { s with cacheExtension := ← word }
  else if key == "cache_dir" then return { s with cacheDirectory := ← directoryOf key value }
  else return s

/-- Set fields one after the other. -/
def setAll (s : StyleSettings) (fields : List (Text × Json)) : Except SettingsError StyleSettings :=
  fields.foldlM (fun s (key, value) => s.set key value) s

/-- The name of the section. -/
def sectionName : Text := "stylesheet"

/-- The keys, in the order in which a list gives their values. -/
def keys : List Text :=
  ["style".toList, "indent".toList, "cache".toList, "cache_extension".toList, optionalKey]

/-- The settings that a section gives. -/
def ofSection (value : Option Json) : Except SettingsError StyleSettings := do
  let given ← sectionValues sectionName keys value
  let s ← setAll .standard given
  requireKeys sectionName keys given
  return s

/-- The values of all fields. -/
def fields (s : StyleSettings) : Fields :=
  Table.ofList [
    ("style".toList, .string s.style),
    ("indent".toList, .string (s.indent.repeated 1)),
    ("cache".toList, .bool s.cache),
    ("cache_extension".toList, .string s.cacheExtension),
    ("cache_dir".toList, directoryValue s.cacheDirectory)]

end StyleSettings

namespace TemplateSettings

/-- Set the field of a key. -/
def set (s : TemplateSettings) (key : Text) (value : Json) :
    Except SettingsError TemplateSettings := do
  let word := kindOf key (wordOf? value)
  let flag := kindOf key (flagOf? value)
  let count := kindOf key (countOf? value)
  if key == "indent" then return { s with indent := ← indentOf key value }
  else if key == "extension" then return { s with sourceExtension := ← word }
  else if key == "compiled_extension" then return { s with compiledExtension := ← word }
  else if key == "cache_dir" then return { s with cacheDirectory := ← directoryOf key value }
  else if key == "no_cache" then return { s with noCache := ← flag }
  else if key == "debug" then return { s with debug := ← flag }
  else if key == "collapse_whitespace" then return { s with collapseWhitespace := ← flag }
  else if key == "compress" then return { s with compress := ← flag }
  else if key == "embed_code" then return { s with embedCode := ← flag }
  else if key == "translate_function" then return { s with translateFunction := ← word }
  else if key == "max_passes" then return { s with maxPasses := ← count }
  else if key == "wrap_width" then return { s with wrapWidth := ← count }
  else if key == "script_prefix" then return { s with scriptRoot := ← word }
  else if key == "image_prefix" then return { s with imageRoot := ← word }
  else return s

/-- Set fields one after the other. -/
def setAll (s : TemplateSettings) (fields : List (Text × Json)) :
    Except SettingsError TemplateSettings :=
  fields.foldlM (fun s (key, value) => s.set key value) s

/-- The name of the section. -/
def sectionName : Text := "markup"

/-- The keys, in the order in which a list gives their values. -/
def keys : List Text :=
  ["indent".toList, "extension".toList, "compiled_extension".toList, optionalKey,
    "no_cache".toList, "debug".toList, "collapse_whitespace".toList, "compress".toList,
    "embed_code".toList, "translate_function".toList, "max_passes".toList, "wrap_width".toList,
    "script_prefix".toList, "image_prefix".toList]

/-- The settings that a section gives. -/
def ofSection (value : Option Json) : Except SettingsError TemplateSettings := do
  let given ← sectionValues sectionName keys value
  let s ← setAll .standard given
  requireKeys sectionName keys given
  return s

/-- The values of all fields. -/
def fields (s : TemplateSettings) : Fields :=
  Table.ofList [
    ("indent".toList, .string (s.indent.repeated 1)),
    ("extension".toList, .string s.sourceExtension),
    ("compiled_extension".toList, .string s.compiledExtension),
    ("cache_dir".toList, directoryValue s.cacheDirectory),
    ("no_cache".toList, .bool s.noCache),
    ("debug".toList, .bool s.debug),
    ("collapse_whitespace".toList, .bool s.collapseWhitespace),
    ("compress".toList, .bool s.compress),
    ("embed_code".toList, .bool s.embedCode),
    ("translate_function".toList, .string s.translateFunction),
    ("max_passes".toList, Json.ofNat s.maxPasses),
    ("wrap_width".toList, Json.ofNat s.wrapWidth),
    ("script_prefix".toList, .string s.scriptRoot),
    ("image_prefix".toList, .string s.imageRoot)]

end TemplateSettings

end Offside
