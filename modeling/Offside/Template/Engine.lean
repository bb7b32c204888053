import Offside.Artifacts.ByTime
import Offside.Host.Attributes
import Offside.Host.Page
import Offside.Template.Blocks

/-!
# The template engine

An engine compiles templates and renders them.  It has settings, a directory that templates are
found in, text blocks, filters that compiled code goes through, functions that templates can call,
and the values they are rendered with.

The code of a template file is kept, and used again as long as it is newer than the file.

A template can include another one when it is rendered, and that one a further one.  How deep this
goes is limited: a rendering is given the number of includes that may still nest, each include
passes on one less, and at zero it fails before any file is looked for (`Engine.renderWithin`).
-/

namespace Offside

/-- A compiled template. -/
structure CompiledTemplate where
  /-- The path of its file, or `inline`. -/
  name : Text
  code : Text
  /-- The lines it was compiled from, in debug mode. -/
  listing : Option Text
  deriving Repr, DecidableEq

/-- What runs the code of a template: it is given the name, the code, the values and the functions.
-/
abbrev HostRuntime (σ : Type) :=
  Text → Text → Fields → Registry (HostFunction σ) → Workspace σ →
    Except TemplateError Text × Workspace σ

/-- The runtime that reads the code as a page and renders it. -/
def pageRuntime {σ : Type} : HostRuntime σ := fun name code bindings functions w =>
  match ((renderPage functions.names bindings code).run functions).run w with
  | (.ok written, w) => (.ok written, w)
  | (.error cause, w) => (.error (.rendering name cause), w)

/-- A template engine. -/
structure Engine (σ : Type) where
  settings : TemplateSettings
  root : FilePath
  blocks : Registry TextBlock
  filters : Registry (Text → Text)
  functions : Registry (HostFunction σ)
  bindings : Fields
  runtime : HostRuntime σ

namespace Engine

variable {σ : Type}

/-- An engine with the standard text blocks. -/
def ofSettings (settings : TemplateSettings) (root : FilePath) : Engine σ where
  settings := settings
  root := root
  blocks := standardBlocks
  filters := .empty
  functions := .empty
  bindings := []
  runtime := pageRuntime

/-- Give a name a value in every later rendering. -/
def assign (e : Engine σ) (name : Text) (value : Json) : Engine σ :=
  { e with bindings := Table.insert name value e.bindings }

/-- Set how texts are translated. -/
def setTranslator (e : Engine σ) (translate : Text → Text) : Engine σ :=
  let function : HostFunction σ := .pure fun arguments =>
    .ok (.string (translate (((Table.get? arguments "text").bind Json.asText?).getD [])))
  { e with functions := e.functions.register e.settings.translateFunction function }

/-! ## Compiling -/

/-- The lines of a template, numbered. -/
def listingFrom : Nat → List OriginLine → Text
  | _, [] => []
  | first, line :: rest =>
    "F" ++ Text.ofNat first ++ ":\t" ++ line.text ++ "\n" ++ listingFrom (first + 1) rest

/-- Send code through the filters, in the order of their registration. -/
def applyFilters (e : Engine σ) (code : Text) : Text :=
  e.filters.entries.foldl (fun code (_, filter) => filter code) code

/-- Compile a source under a name. -/
def compileNamed (e : Engine σ) (name source : Text) (w : Workspace σ) :
    Except TemplateError CompiledTemplate × Workspace σ :=
  let reader : SourceReader := ⟨e.settings, e.root, w.files⟩
  match reader.lines source with
  | .error cause => (.error cause, w)
  | .ok lines =>
    let outline := templateOutline e.settings.indent lines
    let w := { w with builds := w.builds + 1 }
    match templateCode e.settings e.blocks outline lines with
    | .error cause => (.error cause, w)
    | .ok code =>
      let listing := if e.settings.debug then some (listingFrom 1 lines) else none
      (.ok ⟨name, e.applyFilters code, listing⟩, w)

/-- Compile a source that comes from no file. -/
def compile (e : Engine σ) (source : Text) (w : Workspace σ) :
    Except TemplateError CompiledTemplate × Workspace σ :=
  e.compileNamed "inline" source w

/-- The file of a template: the path as given, or below the root, or below the root with the
extension of templates. -/
def resolve (e : Engine σ) (path : FilePath) (files : FileStore) :
    Except TemplateError FilePath :=
  let below := FilePath.join e.root path
  let extended := FilePath.join e.root (path ++ "." ++ e.settings.sourceExtension)
  match [path, below, extended].find? files.isFile with
  | some found => .ok found
  | none => .error (.sourceNotFound below)

/-- Where the code of templates is kept. -/
def artifacts (e : Engine σ) (files : FileStore) : TimeCache :=
  ⟨e.root, e.settings.cacheRoot files, e.settings.compiledExtension⟩

/-- Whether the code of templates is kept. -/
def keepsArtifacts (e : Engine σ) : Bool := !e.settings.noCache && !e.settings.debug

/-- Read and compile a file, without looking for kept code. -/
def compileFresh (e : Engine σ) (path : FilePath) (w : Workspace σ) :
    Except TemplateError CompiledTemplate × Workspace σ :=
  match w.files.readText path with
  | .error cause => (.error (.unreadable path cause), w)
  | .ok source => e.compileNamed path source w

/-- Compile a file and keep its code. -/
def compileAndKeep (e : Engine σ) (path : FilePath) (w : Workspace σ) :
    Except TemplateError CompiledTemplate × Workspace σ :=
  match e.compileFresh path w with
  | (.error cause, w) => (.error cause, w)
  | (.ok template, w) =>
    match (e.artifacts w.files).store w.files path template.code with
    | (.error cause, files) => (.error (.artifact cause), { w with files := files })
    | (.ok (), files) => (.ok template, { w with files := files })

/-- Compile a file, or use the code that was kept of it. -/
def compileFile (e : Engine σ) (path : FilePath) (w : Workspace σ) :
    Except TemplateError CompiledTemplate × Workspace σ :=
  match e.resolve path w.files with
  | .error cause => (.error cause, w)
  | .ok path =>
    if !e.keepsArtifacts then e.compileFresh path w
    else
      match (e.artifacts w.files).lookup w.files path with
      | (.error cause, files) => (.error (.artifact cause), { w with files := files })
      | (.ok (some code), files) => (.ok ⟨path, code, none⟩, { w with files := files })
      | (.ok none, files) => e.compileAndKeep path { w with files := files }

/-! ## Rendering -/

/-- Drop the white space between tags. -/
def compress (t : Text) : Text :=
  match t with
  | [] => []
  | '>' :: rest =>
    let after := Text.trimStart rest
    if rest.length = after.length || after.head? != some '<' then '>' :: compress rest
    else '>' :: '<' :: compress (after.drop 1)
  | c :: rest => c :: compress rest
termination_by t.length
decreasing_by
  · simp
  · have := length_trimStart_le rest
    simp only [List.length_drop, List.length_cons]
    omega
  · simp

/-- Indent the lines of a rendered text. -/
def indentLines (levels : Nat) (t : Text) : Text :=
  (Text.splitOn '\n' (Text.dropEndWhile (· == '\n') t)).flatMap fun line =>
    Text.times levels "  " ++ line ++ "\n"

/-- The function that includes a template, given what renders it; there is nothing to render it with
where includes nest too deep. -/
def includeFunction
    (fetch? : Option (FilePath → Workspace σ → Except TemplateError Text × Workspace σ)) :
    HostFunction σ := fun arguments =>
  match (Table.get? arguments "name").bind Json.asText? with
  | none => throw "include requires a string \x60name\x60 argument".toList
  | some name =>
    match fetch? with
    | none => throw ("include depth exceeded while including '" ++ name ++ "'")
    | some fetch => do
      let w ← get
      match fetch name w with
      | (.error cause, w) => do
        set w
        throw cause.message
      | (.ok written, w) => do
        set w
        let levels := ((Table.get? arguments "indent").bind Json.asNat?).getD 0
        return .string (indentLines levels written)

/-- The functions that a template can call: those of the engine, a translation if it has none, and
those that every template has. -/
def renderFunctions (e : Engine σ)
    (fetch? : Option (FilePath → Workspace σ → Except TemplateError Text × Workspace σ)) :
    Registry (HostFunction σ) :=
  let translate := e.settings.translateFunction
  let own :=
    if e.functions.has translate then e.functions
    else e.functions.register translate (.pure identityTranslation)
  (own.register "object_attributes" (.pure objectAttributes)).register "include"
    (includeFunction fetch?)

/-- Run the code of a template with the given functions. -/
def execute (e : Engine σ) (template : CompiledTemplate) (bindings : Fields)
    (functions : Registry (HostFunction σ)) (w : Workspace σ) :
    Except TemplateError Text × Workspace σ :=
  match e.runtime template.name template.code bindings functions w with
  | (.error cause, w) => (.error cause, w)
  | (.ok written, w) =>
    let written := if e.settings.compress then compress written else written
    match template.listing with
    | some listing => (.ok (written ++ "\n" ++ listing), w)
    | none => (.ok written, w)

/-- Render a template in which includes can nest at most `depth` deep. -/
def renderWithin (e : Engine σ) (bindings : Fields) :
    Nat → CompiledTemplate → Workspace σ → Except TemplateError Text × Workspace σ
  | 0, template, w => e.execute template bindings (e.renderFunctions none) w
  | depth + 1, template, w =>
    let fetch (path : FilePath) (w : Workspace σ) : Except TemplateError Text × Workspace σ :=
      match e.compileFile path w with
      | (.error cause, w) => (.error cause, w)
      | (.ok template, w) => e.renderWithin bindings depth template w
    e.execute template bindings (e.renderFunctions (some fetch)) w

/-- Render a template. -/
def render (e : Engine σ) (template : CompiledTemplate) (bindings : Fields) (w : Workspace σ) :
    Except TemplateError Text × Workspace σ :=
  e.renderWithin bindings e.settings.maxPasses template w

/-- Compile and render a source. -/
def renderSource (e : Engine σ) (source : Text) (w : Workspace σ) :
    Except TemplateError Text × Workspace σ :=
  match e.compile source w with
  | (.error cause, w) => (.error cause, w)
  | (.ok template, w) => e.render template e.bindings w

/-- Compile and render a file. -/
def fetch (e : Engine σ) (path : FilePath) (w : Workspace σ) :
    Except TemplateError Text × Workspace σ :=
  match e.compileFile path w with
  | (.error cause, w) => (.error cause, w)
  | (.ok template, w) => e.render template e.bindings w

/-! ## Kept code -/

/-- Remove all code that was kept, and say how much there was. -/
def clearCompiled (e : Engine σ) (w : Workspace σ) : Except TemplateError Nat × Workspace σ :=
  let (count, files) := (e.artifacts w.files).clear w.files
  (count.mapError .artifact, { w with files := files })

/-- Where the code of a template is kept. -/
def compiledPath (e : Engine σ) (path : FilePath) (files : FileStore) :
    Except TemplateError FilePath :=
  (e.resolve path files).map ((e.artifacts files).artifactPath files)

end Engine

end Offside
