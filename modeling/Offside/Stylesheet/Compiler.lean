import Offside.Artifacts.ByContent
import Offside.Settings.Basic
import Offside.Stylesheet.Builder
import Offside.Stylesheet.Render

/-!
# The stylesheet compiler

A source is parsed into an outline of rules and written in an output style.  Output that has been
kept is used again as long as source, constants and style are the same; only then is nothing parsed.

What a run changes is its workspace: the files, how many sources have been parsed, and the warnings
that came up.
-/

namespace Offside

/-- What a run of the stylesheet compiler changes. -/
structure StyleWorkspace where
  files : FileStore
  /-- How many sources have been parsed. -/
  builds : Nat
  warnings : List StyleWarning

/-- Why a stylesheet could not be compiled. -/
inductive StylesheetError where
  | sourceNotFound (path : FilePath)
  | unreadable (path : FilePath) (cause : FileError)
  | unknownStyle (name : Text)
  | calculation (fault : StyleFault)
  | artifact (cause : ArtifactError)
  deriving Repr, DecidableEq

namespace StylesheetError

/-- The text of the error. -/
def message : StylesheetError → Text
  | sourceNotFound path => "stylesheet not found: " ++ path
  | unreadable path cause => "failed to read " ++ path ++ ": " ++ cause.message
  | unknownStyle name => "unknown output style '" ++ name ++ "'"
  | calculation fault => "line " ++ Text.ofNat fault.line ++ ": " ++ fault.cause.message
  | artifact cause => cause.message

end StylesheetError

/-- A stylesheet compiler: its settings, the output styles it knows, and where it keeps output. -/
structure StyleCompiler where
  settings : StyleSettings
  styles : Registry StyleRenderer
  cache : Option ContentCache

namespace StyleCompiler

/-- A compiler with the four standard styles. -/
def ofSettings (settings : StyleSettings) (s : FileStore) : StyleCompiler where
  settings := settings
  styles := StyleRenderer.standard
  cache :=
    if settings.cache then some ⟨settings.cacheRoot s, settings.cacheExtension⟩ else none

/-- Keep output in a directory. -/
def withCacheDirectory (c : StyleCompiler) (directory : FilePath) : StyleCompiler :=
  { c with
    settings := { c.settings with cache := true, cacheDirectory := some directory }
    cache := some ⟨directory, c.settings.cacheExtension⟩ }

/-- Keep no output. -/
def withoutCache (c : StyleCompiler) : StyleCompiler :=
  { c with settings := { c.settings with cache := false }, cache := none }

/-- Choose another output style. -/
def setStyle (c : StyleCompiler) (style : Text) : Except StylesheetError StyleCompiler :=
  if c.styles.has style then .ok { c with settings := { c.settings with style := style } }
  else .error (.unknownStyle style)

/-- Write an outline in a style, without white space at the end. -/
def renderOutline (c : StyleCompiler) (outline : StyleOutline) (style : Text) :
    Except StylesheetError Text :=
  match c.styles.get? style with
  | some renderer => .ok (Text.trimEnd (renderer.render outline))
  | none => .error (.unknownStyle style)

/-- Parse a source. -/
def parse (c : StyleCompiler) (constants : List (Text × Text)) (source : Text)
    (w : StyleWorkspace) : Except StylesheetError StyleOutline × StyleWorkspace :=
  match parseStyles c.settings.indent constants source with
  | .ok parsed =>
    (.ok parsed.outline,
      { w with builds := w.builds + 1, warnings := w.warnings ++ parsed.warnings })
  | .error fault => (.error (.calculation fault), w)

/-- What the key of a compilation is made from: the style, the constants and the source. -/
def keyMaterial (style : Text) (constants : List (Text × Text)) (source : Text) : Text :=
  let mark : Text := [Char.ofNat 0]
  let defined : Text := constants.flatMap fun (name, value) => name ++ "=" ++ value ++ mark
  style ++ mark ++ defined ++ source

/-- The key of a compilation. -/
def key (style : Text) (constants : List (Text × Text)) (source : Text) : Text :=
  ContentCache.key (keyMaterial style constants source)

/-- Parse a source and write it in the style that is set. -/
def build (c : StyleCompiler) (constants : List (Text × Text)) (source : Text)
    (w : StyleWorkspace) : Except StylesheetError Text × StyleWorkspace :=
  match c.parse constants source w with
  | (.error e, w) => (.error e, w)
  | (.ok outline, w) => (c.renderOutline outline c.settings.style, w)

/-- Compile a source, using kept output if there is any. -/
def compile (c : StyleCompiler) (constants : List (Text × Text)) (source : Text)
    (w : StyleWorkspace) : Except StylesheetError Text × StyleWorkspace :=
  let style := c.settings.style
  if !c.styles.has style then (.error (.unknownStyle style), w)
  else
    match c.cache with
    | none => c.build constants source w
    | some cache =>
      let key := key style constants source
      match cache.lookup w.files key with
      | .error e => (.error (.artifact e), w)
      | .ok (some css) => (.ok css, w)
      | .ok none =>
        match c.build constants source w with
        | (.error e, w) => (.error e, w)
        | (.ok css, w) =>
          match cache.store w.files key css with
          | (.error e, files) => (.error (.artifact e), { w with files := files })
          | (.ok (), files) => (.ok css, { w with files := files })

/-- Compile a file. -/
def compileFile (c : StyleCompiler) (constants : List (Text × Text)) (path : FilePath)
    (w : StyleWorkspace) : Except StylesheetError Text × StyleWorkspace :=
  if !w.files.isFile path then (.error (.sourceNotFound path), w)
  else
    match w.files.readText path with
    | .ok source => c.compile constants source w
    | .error cause => (.error (.unreadable path cause), w)

end StyleCompiler

/-- Compile a source with the standard settings. -/
def compileStandardStyles (source : Text) : Except StylesheetError Text :=
  let settings := StyleSettings.standard
  match parseStyles settings.indent [] source with
  | .ok parsed => .ok (Text.trimEnd (StyleRenderer.nested.render parsed.outline))
  | .error fault => .error (.calculation fault)

end Offside
