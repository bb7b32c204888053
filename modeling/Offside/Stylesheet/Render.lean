import Offside.Registry
import Offside.Stylesheet.Rule

/-!
# Output styles

Four ways to write an outline of rules, all by the same two rules: a rule without attributes writes
nothing, though the rules below it do, and selectors are resolved against the rules above.

* `nested` indents a rule by how many rules above it were written, with the closing brace behind the
  last attribute.
* `expanded` writes one attribute to a line and an empty line between rules.
* `compact` writes one rule to a line.
* `compressed` writes everything on one line and leaves out what can be left out.
-/

namespace Offside

/-- A way to write an outline of rules. -/
structure StyleRenderer where
  name : Text
  description : Text
  render : StyleOutline → Text

namespace StyleRenderer

/-- The rules that have attributes, in the order of their lines. -/
def renderedRules (t : StyleOutline) : List (NodeId × StyleRule) :=
  t.preorder.filterMap fun id =>
    (t.get? id).bind fun rule => if rule.hasAttributes then some (id, rule) else none

/-! ## Nested -/

/-- A rule in the nested style, at a level of indentation. -/
def nestedBlock (t : StyleOutline) (level : Nat) (id : NodeId) (rule : StyleRule) : Text :=
  let pad := Text.times level "  "
  let lines := rule.attributes.map fun (name, value) => pad ++ "  " ++ name ++ ": " ++ value ++ ";"
  pad ++ selectorText ", " t id ++ " \x7b\n" ++ Text.join "\n" lines ++ " \x7d\n"

mutual

/-- A tree of rules in the nested style. -/
def nestedTree (t : StyleOutline) (level : Nat) : OutlineTree StyleRule → Text
  | .node id rule children =>
    if rule.hasAttributes then nestedBlock t level id rule ++ nestedTrees t (level + 1) children
    else nestedTrees t level children

/-- A list of trees of rules in the nested style. -/
def nestedTrees (t : StyleOutline) (level : Nat) : List (OutlineTree StyleRule) → Text
  | [] => []
  | tree :: trees => nestedTree t level tree ++ nestedTrees t level trees

end

/-- Indented by nesting. -/
def nested : StyleRenderer where
  name := "nested"
  description := "Indented by nesting depth (default)"
  render t := nestedTrees t 0 t.trees

/-! ## The flat styles -/

/-- A rule in the expanded style. -/
def expandedBlock (t : StyleOutline) (id : NodeId) (rule : StyleRule) : Text :=
  let body : Text := rule.attributes.flatMap fun (name, value) =>
    "  " ++ name ++ ": " ++ value ++ ";\n"
  selectorText ", " t id ++ " \x7b\n" ++ body ++ "\x7d\n"

/-- One attribute to a line. -/
def expanded : StyleRenderer where
  name := "expanded"
  description := "One attribute per line, blocks separated by blank lines"
  render t := Text.join "\n" ((renderedRules t).map fun (id, rule) => expandedBlock t id rule)

/-- A rule in the compact style. -/
def compactBlock (t : StyleOutline) (id : NodeId) (rule : StyleRule) : Text :=
  let body : Text := rule.attributes.flatMap fun (name, value) => name ++ ":" ++ value ++ ";"
  selectorText ", " t id ++ "\x7b" ++ body ++ "\x7d\n"

/-- One rule to a line. -/
def compact : StyleRenderer where
  name := "compact"
  description := "One rule per line"
  render t := (renderedRules t).flatMap fun (id, rule) => compactBlock t id rule

/-- A rule in the compressed style. -/
def compressedBlock (t : StyleOutline) (id : NodeId) (rule : StyleRule) : Text :=
  let body := rule.attributes.map fun (name, value) => name ++ ":" ++ value
  selectorText "," t id ++ "\x7b" ++ Text.join ";" body ++ "\x7d"

/-- Everything on one line. -/
def compressed : StyleRenderer where
  name := "compressed"
  description := "Minified, single line"
  render t := (renderedRules t).flatMap fun (id, rule) => compressedBlock t id rule

/-! ## The registry of styles -/

/-- Register a style under its own name. -/
def registerIn (styles : Registry StyleRenderer) (style : StyleRenderer) :
    Registry StyleRenderer :=
  styles.register style.name style

/-- The four styles. -/
def standard : Registry StyleRenderer :=
  [nested, expanded, compact, compressed].foldl registerIn .empty

end StyleRenderer

end Offside
