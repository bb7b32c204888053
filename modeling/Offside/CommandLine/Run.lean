import Offside.CommandLine.Command
import Offside.Settings.Layers
import Offside.Stylesheet.Compiler
import Offside.Template.Engine
import Offside.Yaml.Reader

/-!
# Running commands

A command is run on the files it can see; it prints a text, or fails with an error, and may leave
other files behind.  Settings come from the settings file of the current directory, then from the
file that is named, then from switches.
-/

namespace Offside

/-- Why the values for a template could not be read from a file. -/
inductive ValueFileError where
  | unreadable (path : FilePath) (cause : FileError)
  | brokenJson (cause : JsonError)
  | brokenYaml
  | notAMapping (path : FilePath)
  deriving Repr, DecidableEq

namespace ValueFileError

/-- The text of the error. -/
def message : ValueFileError → Text
  | unreadable path cause => path ++ ": " ++ cause.message
  | brokenJson cause => cause.message
  | brokenYaml => "the document cannot be read"
  | notAMapping path => path ++ ": expected a mapping at the top level"

end ValueFileError

/-- Why a command failed. -/
inductive CommandError where
  | settings (cause : SettingsError)
  | unknownStyle (name : Text) (known : List Text)
  | badPair (switch pair : Text)
  | valueFile (cause : ValueFileError)
  | stylesheet (cause : StylesheetError)
  | template (cause : TemplateError)
  | clearing (cause : TemplateError)
  deriving Repr, DecidableEq

namespace CommandError

/-- The text of the error. -/
def message : CommandError → Text
  | settings cause => "Configuration error: " ++ cause.message
  | unknownStyle name known =>
    let lines : List Text := known.map fun style => "\n  " ++ style
    (StylesheetError.unknownStyle name).message ++ "\n\nAvailable styles:" ++ lines.flatten
  | badPair switch pair =>
    "Invalid --" ++ switch ++ ": expected name=value, got '" ++ pair ++ "'"
  | valueFile cause => "Invalid --vars: " ++ cause.message
  | stylesheet cause => "Compilation error: " ++ cause.message
  | template cause => "Template error: " ++ cause.message
  | clearing cause => "Failed to clear compiled templates: " ++ cause.message

end CommandError

/-- What a command did: what it printed or why it failed, the warnings that came up, and the files
afterwards. -/
structure CommandResult where
  outcome : Except CommandError Text
  warnings : List StyleWarning
  files : FileStore

/-! ## Arguments of commands -/

/-- The name and the value of a pair, without the white space around them. -/
def pairOf? (pair : Text) : Option (Text × Text) :=
  match Text.splitOnce? '=' pair with
  | none => none
  | some (name, value) =>
    let name := Text.trim name
    if name.isEmpty then none else some (name, Text.trim value)

/-- The pairs that were given with a switch. -/
def pairsOf (switch : Text) : List Text → Except CommandError (List (Text × Text))
  | [] => .ok []
  | pair :: rest =>
    match pairOf? pair with
    | none => .error (.badPair switch pair)
    | some pair => (pairsOf switch rest).map (pair :: ·)

/-- The data value in a file: YAML if its extension says so, else JSON. -/
def dataOf (path : FilePath) (t : Text) : Except ValueFileError Json :=
  let extension := path.extension?
  if extension == some "yaml".toList || extension == some "yml".toList then
    match Yaml.read? t with
    | some json => .ok json
    | none => .error .brokenYaml
  else (Json.read t).mapError .brokenJson

/-- The values for a template in a file. -/
def valuesIn (files : FileStore) (path : FilePath) : Except ValueFileError Fields := do
  let t ← (files.readText path).mapError (.unreadable path)
  match ← dataOf path t with
  | .object fields => return fields
  | _ => .error (.notAMapping path)

/-! ## Settings -/

/-- The layers of settings of an invocation. -/
def Invocation.layers (i : Invocation) : List SettingsLayer :=
  let switches : List SettingsLayer :=
    match i.command with
    | .template _ _ _ _ _ debug noCache =>
      (if debug then [.key "markup" "debug" (.bool true)] else []) ++
        (if noCache then [.key "markup" "no_cache" (.bool true)] else [])
    | _ => []
  [.optionalFile "terrace.toml"] ++ (i.settingsFile.map SettingsLayer.file).toList ++ switches

/-! ## Commands -/

/-- The compiler that the settings and switches ask for. -/
def styleCompilerFor (settings : StyleSettings) (style cacheDirectory : Option Text)
    (files : FileStore) : Except CommandError StyleCompiler :=
  let compiler := StyleCompiler.ofSettings settings files
  let compiler := (cacheDirectory.map compiler.withCacheDirectory).getD compiler
  match style with
  | none => .ok compiler
  | some style =>
    (compiler.setStyle style).mapError fun _ => .unknownStyle style compiler.styles.sortedNames

/-- Compile a stylesheet. -/
def runStyles (settings : StyleSettings) (path : Text) (style cacheDirectory : Option Text)
    (constants : List Text) (files : FileStore) : CommandResult :=
  match styleCompilerFor settings style cacheDirectory files, pairsOf "const" constants with
  | .error e, _ => ⟨.error e, [], files⟩
  | .ok _, .error e => ⟨.error e, [], files⟩
  | .ok compiler, .ok constants =>
    match compiler.compileFile constants path ⟨files, 0, []⟩ with
    | (.ok css, w) => ⟨.ok (css ++ "\n"), w.warnings, w.files⟩
    | (.error e, w) => ⟨.error (.stylesheet e), w.warnings, w.files⟩

/-- The engine that the settings and switches ask for. -/
def engineFor (settings : TemplateSettings) (root : FilePath) (valueFile : Option Text)
    (values : List Text) (files : FileStore) : Except CommandError (Engine Unit) := do
  let read ←
    match valueFile with
    | none => .ok []
    | some path => (valuesIn files path).mapError .valueFile
  let pairs ← pairsOf "set" values
  let bindings := Table.insertAll (pairs.map fun (name, value) => (name, Json.string value)) read
  return { Engine.ofSettings settings root with bindings := bindings }

/-- Compile a template, and render it unless only its code is asked for. -/
def runTemplate (settings : TemplateSettings) (path : Text) (root valueFile : Option Text)
    (values : List Text) (compileOnly : Bool) (files : FileStore) : CommandResult :=
  let root := root.getD ((FilePath.parent? path).getD [])
  match engineFor settings root valueFile values files with
  | .error e => ⟨.error e, [], files⟩
  | .ok engine =>
    let w : Workspace Unit := ⟨files, 0, ()⟩
    let (written, w) : Except TemplateError Text × Workspace Unit :=
      if compileOnly then
        let (template, w) := engine.compileFile path w
        (template.map (·.code), w)
      else engine.fetch path w
    ⟨written.mapError .template, [], w.files⟩

/-- The line of an output style in the list of styles. -/
def styleRow (style : StyleRenderer) : Text :=
  "  " ++ style.name ++ Text.times (10 - style.name.length) " " ++ " " ++ style.description ++ "\n"

/-- The list of the output styles. -/
def styleList (styles : Registry StyleRenderer) : Text :=
  "Available output styles:\n\n" ++
    styles.sortedNames.flatMap fun name => ((styles.get? name).map styleRow).getD []

/-- Remove compiled templates. -/
def runClear (settings : TemplateSettings) (root : Text) (files : FileStore) : CommandResult :=
  let engine : Engine Unit := .ofSettings settings root
  match engine.clearCompiled ⟨files, 0, ()⟩ with
  | (.ok count, w) =>
    ⟨.ok ("Removed " ++ Text.ofNat count ++ " compiled template(s)\n"), [], w.files⟩
  | (.error e, w) => ⟨.error (.clearing e), [], w.files⟩

/-- Run a command with its settings. -/
def Command.run (settings : Settings) (files : FileStore) : Command → CommandResult
  | .styles path style cacheDirectory constants =>
    runStyles settings.styles path style cacheDirectory constants files
  | .template path root valueFile values compileOnly _ _ =>
    runTemplate settings.templates path root valueFile values compileOnly files
  | .listStyles =>
    ⟨.ok (styleList (StyleCompiler.ofSettings settings.styles files).styles), [], files⟩
  | .clear root => runClear settings.templates root files

/-- Load the settings of an invocation and run its command. -/
def Invocation.run (i : Invocation) (files : FileStore) : CommandResult :=
  match loadSettings files i.layers with
  | .error e => ⟨.error (.settings e), [], files⟩
  | .ok settings => i.command.run settings files

/-- What the program says of its version. -/
def versionText : Text := "terrace 0.1.0\n"

/-- What the program says of its use. -/
def usageText : Text :=
  "Usage: terrace [OPTIONS] <COMMAND>\n\n" ++
  "Commands:\n" ++
  "  css <PATH> [--style STYLE] [--cache-dir DIR] [--const NAME=VALUE]...\n" ++
  "  html <PATH> [--root DIR] [--vars FILE] [--set NAME=VALUE]...\n" ++
  "       [--compile-only] [--debug] [--no-cache]\n" ++
  "  styles\n" ++
  "  clear <ROOT>\n\n" ++
  "Options:\n" ++
  "  -c, --config FILE  Settings laid over the standard ones\n" ++
  "  -v, --verbose      Say more\n" ++
  "  -h, --help         Print this text\n" ++
  "  -V, --version      Print the version\n"

end Offside
