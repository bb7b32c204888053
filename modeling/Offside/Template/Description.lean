import Offside.Template.Engine

/-!
# Descriptions

The state of an engine and of its parts, written out for whoever looks for a fault: each part with
the name of its kind and the names of its fields.
-/

namespace Offside

/-- A part with its kind and its fields. -/
def describedRecord (kind : Text) (fields : List (Text × Text)) : Text :=
  kind ++ " \x7b " ++
    Text.join ", " (fields.map fun (name, value) => name ++ ": " ++ value) ++ " \x7d"

/-- A truth value. -/
def describedFlag (flag : Bool) : Text := if flag then "true" else "false"

/-- A text that may be missing. -/
def describedOption : Option Text → Text
  | some value => "Some(" ++ Text.quoted value ++ ")"
  | none => "None"

/-- A unit of indentation. -/
def IndentUnit.described : IndentUnit → Text
  | .tab => "Tab"
  | .spaces count => "Spaces(" ++ Text.ofNat count ++ ")"

/-- The settings of the template compiler. -/
def TemplateSettings.described (s : TemplateSettings) : Text :=
  describedRecord "MarkupConfig" [
    ("indent", s.indent.described),
    ("extension", Text.quoted s.sourceExtension),
    ("compiled_extension", Text.quoted s.compiledExtension),
    ("cache_dir", describedOption s.cacheDirectory),
    ("no_cache", describedFlag s.noCache),
    ("debug", describedFlag s.debug),
    ("collapse_whitespace", describedFlag s.collapseWhitespace),
    ("compress", describedFlag s.compress),
    ("embed_code", describedFlag s.embedCode),
    ("translate_function", Text.quoted s.translateFunction),
    ("max_passes", Text.ofNat s.maxPasses),
    ("wrap_width", Text.ofNat s.wrapWidth),
    ("script_prefix", Text.quoted s.scriptRoot),
    ("image_prefix", Text.quoted s.imageRoot)]

/-- The text blocks, in the order of their names. -/
def describedBlocks (blocks : Registry TextBlock) : Text :=
  describedRecord "TextBlockRegistry" [("blocks", describedNames blocks.sortedNames)]

/-- The filters, in the order of their registration. -/
def describedFilters (filters : Registry (Text → Text)) : Text :=
  describedRecord "FilterRegistry" [("filters", describedNames filters.names)]

/-- The functions, in the order of their names. -/
def describedFunctions {σ : Type} (functions : Registry (HostFunction σ)) : Text :=
  describedRecord "FunctionRegistry" [("functions", describedNames functions.sortedNames)]

/-- The values that templates are rendered with. -/
def describedBindings (bindings : Fields) : Text :=
  describedRecord "Bindings" [("values", "\x7b" ++ Json.fieldsDescribed bindings ++ "\x7d")]

/-- The state of an engine. -/
def Engine.described {σ : Type} (e : Engine σ) : Text :=
  "MarkupEngine \x7b config: " ++ e.settings.described ++
    ", root: " ++ Text.quoted e.root ++
    ", blocks: " ++ describedBlocks e.blocks ++
    ", filters: " ++ describedFilters e.filters ++
    ", functions: " ++ describedFunctions e.functions ++
    ", bindings: " ++ describedBindings e.bindings ++ ", .. \x7d"

end Offside
