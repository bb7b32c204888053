import Offside.Markdown.Block
import Offside.Stylesheet.Compiler
import Offside.Template.Code

/-!
# Text blocks

The text blocks that every template can use: `:markdown` for marked up text, and `:sass` for a
stylesheet.
-/

namespace Offside

/-- Write marked up text as markup. -/
def markdownBlock : TextBlock := fun source => .ok (Markdown.render source)

/-- Compile a stylesheet with the standard settings. -/
def stylesBlock : TextBlock := fun source => (compileStandardStyles source).mapError (·.message)

/-- The blocks that every template can use. -/
def standardBlocks : Registry TextBlock :=
  (Registry.empty.register "markdown" markdownBlock).register "sass" stylesBlock

end Offside
