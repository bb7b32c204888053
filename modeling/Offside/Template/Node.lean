import Offside.Outline.Builder
import Offside.Template.Line
import Offside.Template.Source

/-!
# The outline of a template

The lines that are not blank become the nodes of an outline, as deep as they are indented.  The
lines below a text block are its raw input, those below an internal comment are dropped, and a
dynamic include takes none, so what stands below them is taken out of the outline.
-/

namespace Offside

/-- A line of a template in its outline. -/
structure TemplateNode where
  /-- The number of the line, counted from one. -/
  line : Nat
  /-- The line without the white space around it. -/
  content : Text
  /-- The included file it came from. -/
  origin : Option FilePath
  deriving Repr, DecidableEq

namespace TemplateNode

/-- The kind of the line. -/
def kind (n : TemplateNode) : TemplateLine := TemplateLine.ofText n.content

end TemplateNode

/-- An outline of template lines. -/
abbrev TemplateOutline := Outline TemplateNode

/-- The nodes of lines, numbered from `first` on, with their depths. -/
def nodesFrom (unit : IndentUnit) : Nat → List OriginLine → List (Nat × TemplateNode)
  | _, [] => []
  | first, line :: rest =>
    if Text.isBlankText line.text then nodesFrom unit (first + 1) rest
    else
      (unit.depth line.text, ⟨first, Text.trim line.text, line.origin⟩) ::
        nodesFrom unit (first + 1) rest

/-- Whether what stands below a node is taken out. -/
def hidesChildrenOf (t : TemplateOutline) (id : NodeId) : Bool :=
  (t.get? id).any fun node => node.kind.hidesChildren

/-- Take out what stands below the nodes that hide it. -/
def detachHidden (t : TemplateOutline) : TemplateOutline :=
  (t.preorder.filter (hidesChildrenOf t)).foldl Outline.clearChildren t

/-- The outline of the lines of a template. -/
def templateOutline (unit : IndentUnit) (lines : List OriginLine) : TemplateOutline :=
  detachHidden (Outline.ofDepths (nodesFrom unit 1 lines))

end Offside
