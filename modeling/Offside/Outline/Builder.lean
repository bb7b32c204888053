import Offside.Outline.Basic

/-!
# Building an outline from depths

Lines come one after the other, each with the depth it is written at.  The builder keeps the path of
open nodes, one for each depth.  A line at depth `d` closes everything at depth `d` and deeper and
goes under the open node at depth `d - 1`; a line that jumps more than one level deeper goes under
the deepest open node, and its depth in the outline is then smaller than the one it was written at.
-/

namespace Offside

/-- An outline that is being built, with its path of open nodes from the root down. -/
structure OutlineBuilder (α : Type) where
  outline : Outline α
  openPath : List NodeId
  deriving Repr, DecidableEq

namespace OutlineBuilder

variable {α : Type}

/-- Nothing added yet. -/
def empty : OutlineBuilder α := ⟨.empty, []⟩

instance : Inhabited (OutlineBuilder α) := ⟨empty⟩

/-- Add a node written at `depth`.  Its number is the size of the outline before. -/
def push (b : OutlineBuilder α) (depth : Nat) (data : α) : OutlineBuilder α :=
  let path := b.openPath.take depth
  ⟨b.outline.append path.getLast? data, path ++ [b.outline.size]⟩

/-- The open node at a depth: the last one at that depth whose subtree may still grow. -/
def openAt? (b : OutlineBuilder α) (depth : Nat) : Option NodeId := b.openPath[depth]?

/-- Change what a node holds. -/
def update (b : OutlineBuilder α) (id : NodeId) (f : α → α) : OutlineBuilder α :=
  { b with outline := b.outline.update id f }

end OutlineBuilder

/-- The outline of a list of lines with their depths. -/
def Outline.ofDepths {α : Type} (lines : List (Nat × α)) : Outline α :=
  (lines.foldl (fun b (depth, data) => b.push depth data) OutlineBuilder.empty).outline

end Offside
