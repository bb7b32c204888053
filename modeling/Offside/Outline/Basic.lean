/-!
# Outlines

An outline is a forest of nodes.  Nodes are numbered in the order they are added, and each knows its
parent, its children and its depth; questions about the neighbourhood of a node are look-ups.  A
node is added under one that is there already (`append`), so a parent always has a smaller number
than its children.  That is why a walk upwards takes at most as many steps as the node's number
(`ancestors`), and why a walk downwards is at most as deep as the outline is large (`trees`).

Nodes are never removed.  `clearChildren` detaches the children of a node: they keep their number
and their parent, and are no longer reached from the roots.
-/

namespace Offside

/-- The number of a node, counted from zero in the order of adding. -/
abbrev NodeId := Nat

/-- A node of an outline. -/
structure OutlineNode (α : Type) where
  data : α
  parent : Option NodeId
  children : List NodeId
  depth : Nat
  deriving Repr, DecidableEq

/-- A forest of numbered nodes. -/
structure Outline (α : Type) where
  nodes : List (OutlineNode α)
  roots : List NodeId
  deriving Repr, DecidableEq

/-- A tree of a forest, with the numbers of its nodes. -/
inductive OutlineTree (α : Type) where
  | node (id : NodeId) (data : α) (children : List (OutlineTree α))

namespace OutlineTree

variable {α : Type}

/-- The number of the root. -/
def id : OutlineTree α → NodeId
  | node id _ _ => id

/-- What the root holds. -/
def data : OutlineTree α → α
  | node _ data _ => data

/-- The trees below the root. -/
def children : OutlineTree α → List (OutlineTree α)
  | node _ _ children => children

mutual

/-- The nodes of a tree, each before those below it. -/
def preorder : OutlineTree α → List NodeId
  | node id _ children => id :: preorderAll children

/-- The nodes of a list of trees, tree by tree. -/
def preorderAll : List (OutlineTree α) → List NodeId
  | [] => []
  | tree :: trees => preorder tree ++ preorderAll trees

end

end OutlineTree

namespace Outline

variable {α : Type}

/-- The outline without nodes. -/
def empty : Outline α := ⟨[], []⟩

instance : Inhabited (Outline α) := ⟨empty⟩

/-- How many nodes have been added. -/
def size (t : Outline α) : Nat := t.nodes.length

/-- What a node holds. -/
def get? (t : Outline α) (id : NodeId) : Option α := t.nodes[id]?.map (·.data)

/-- The parent of a node; a root has none. -/
def parent? (t : Outline α) (id : NodeId) : Option NodeId := t.nodes[id]?.bind (·.parent)

/-- The parent of the parent. -/
def grandparent? (t : Outline α) (id : NodeId) : Option NodeId := (t.parent? id).bind t.parent?

/-- The children of a node, in the order of adding. -/
def children (t : Outline α) (id : NodeId) : List NodeId :=
  (t.nodes[id]?.map (·.children)).getD []

/-- Whether a node has children. -/
def hasChildren (t : Outline α) (id : NodeId) : Bool := !(t.children id).isEmpty

/-- How deep a node is in the outline; roots are at zero. -/
def depth (t : Outline α) (id : NodeId) : Nat := (t.nodes[id]?.map (·.depth)).getD 0

/-! ## Changing an outline -/

/-- Change one node. -/
def modify (t : Outline α) (id : NodeId) (f : OutlineNode α → OutlineNode α) : Outline α :=
  { t with nodes := t.nodes.modify id f }

/-- Add a node under a parent, or as a root.  Its number is the size of the outline. -/
def append (t : Outline α) (parent : Option NodeId) (data : α) : Outline α :=
  let id := t.size
  match parent with
  | none => ⟨t.nodes ++ [⟨data, none, [], 0⟩], t.roots ++ [id]⟩
  | some p =>
    let grown := t.modify p fun node => { node with children := node.children ++ [id] }
    { grown with nodes := grown.nodes ++ [⟨data, some p, [], t.depth p + 1⟩] }

/-- Change what a node holds. -/
def update (t : Outline α) (id : NodeId) (f : α → α) : Outline α :=
  t.modify id fun node => { node with data := f node.data }

/-- Detach the children of a node. -/
def clearChildren (t : Outline α) (id : NodeId) : Outline α :=
  t.modify id fun node => { node with children := [] }

/-! ## Neighbours -/

/-- A node and its siblings, in the order of adding.  Roots are siblings of each other. -/
def siblings (t : Outline α) (id : NodeId) : List NodeId :=
  match t.parent? id with
  | some p => t.children p
  | none => t.roots

/-- The place of a node among its siblings; zero for a detached one. -/
def childIndex (t : Outline α) (id : NodeId) : Nat :=
  ((t.siblings id).idxOf? id).getD 0

/-- Whether a node is the first among its siblings. -/
def isFirstChild (t : Outline α) (id : NodeId) : Bool := (t.siblings id).head? == some id

/-- Whether a node is the last among its siblings. -/
def isLastChild (t : Outline α) (id : NodeId) : Bool := (t.siblings id).getLast? == some id

/-- The sibling right before a node. -/
def previousSibling? (t : Outline α) (id : NodeId) : Option NodeId :=
  match t.childIndex id with
  | 0 => none
  | index + 1 => (t.siblings id)[index]?

/-- The next `steps` nodes on the way up from a node. -/
def ancestorsWithin (t : Outline α) : Nat → NodeId → List NodeId
  | 0, _ => []
  | steps + 1, id =>
    match t.parent? id with
    | some p => p :: t.ancestorsWithin steps p
    | none => []

/-- The ancestors of a node, from its parent up to a root. -/
def ancestors (t : Outline α) (id : NodeId) : List NodeId := t.ancestorsWithin id id

/-! ## Walking down -/

/-- The trees under the given nodes, down to `levels` levels. -/
def treesWithin (t : Outline α) : Nat → List NodeId → List (OutlineTree α)
  | 0, _ => []
  | levels + 1, ids =>
    ids.filterMap fun id =>
      t.nodes[id]?.map fun node =>
        .node id node.data (t.treesWithin levels node.children)

/-- The trees of the outline, one for each root. -/
def trees (t : Outline α) : List (OutlineTree α) := t.treesWithin t.size t.roots

/-- All nodes that are reached from the roots, each before those below it. -/
def preorder (t : Outline α) : List NodeId := OutlineTree.preorderAll t.trees

end Outline

end Offside
