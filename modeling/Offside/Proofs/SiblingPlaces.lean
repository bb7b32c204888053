import Mathlib
import Offside.Proofs.OutlineWalk
import Offside.Template.Code

/-!
# Places and siblings

The code of a line depends on the lines beside it: on whether it is the first or the last of them,
and, for a further branch of a block, on what stands before it.  Writing an outline hands this down
from line to line as a `Place`.  It could as well be looked up in the outline, and here the two are
shown to agree.

**Siblings.**  A node divides the nodes beside it into those before it and those after it.  What is
looked up about a node is read off this division (`isFirstChild_eq`, `isLastChild_eq`,
`previousSibling?_eq`).

**Places.**  `place` puts together what is looked up; going back from sibling to sibling gives the
kinds of the lines before (`Row.place_eq`), and there are none before a first child
(`Row.isFirst_place`).  If every line looks up its place the code stays the same
(`templateCode_eq_at`).
-/

namespace Offside

namespace Outline

/-! ## Siblings -/

section Siblings

variable {α : Type} {t : Outline α} {id : NodeId} {done rest : List NodeId}

lemma childIndex_eq (h : t.siblings id = done ++ id :: rest) (hnew : id ∉ done) :
    t.childIndex id = done.length := by
  have hindex : (done ++ id :: rest).idxOf? id = some done.length := by
    refine List.idxOf?_eq_some_iff.2 ⟨by simp, by simp, fun j hj => ?_⟩
    rw [List.getElem_append_left hj]
    exact fun heq => hnew (heq ▸ List.getElem_mem hj)
  rw [childIndex, h, hindex, Option.getD_some]

lemma isFirstChild_eq (h : t.siblings id = done ++ id :: rest) (hnew : id ∉ done) :
    t.isFirstChild id = done.isEmpty := by
  rw [isFirstChild, h]
  cases done with
  | nil => simp
  | cons first done =>
      have hne : first ≠ id := fun heq => hnew (heq ▸ List.mem_cons_self)
      simpa using hne

lemma isLastChild_eq (h : t.siblings id = done ++ id :: rest) (hnew : id ∉ rest) :
    t.isLastChild id = rest.isEmpty := by
  rw [isLastChild, h]
  rcases List.eq_nil_or_concat' rest with rfl | ⟨others, last, rfl⟩
  · simp
  · have hne : last ≠ id := fun heq => hnew (by simp [heq])
    have hlast : (done ++ id :: (others ++ [last])).getLast? = some last := by
      rw [← List.cons_append, ← List.append_assoc, List.getLast?_concat]
    rw [hlast, Option.some_beq_some, beq_false_of_ne hne]
    simp

lemma previousSibling?_eq (h : t.siblings id = done ++ id :: rest) (hnew : id ∉ done) :
    t.previousSibling? id = done.getLast? := by
  rw [previousSibling?, childIndex_eq h hnew, h]
  rcases List.eq_nil_or_concat done with rfl | ⟨first, last, rfl⟩
  · rfl
  · simp

lemma Linked.siblings_children (h : t.Linked) {p c : NodeId} (hc : c ∈ t.children p) :
    t.siblings c = t.children p := by
  rw [siblings, h.parent?_of_mem_children hc]

lemma Linked.siblings_root (h : t.Linked) {r : NodeId} (hr : r ∈ t.roots) :
    t.siblings r = t.roots := by
  rw [siblings, ((h.mem_roots_iff r).1 hr).2]

end Siblings

/-! ## Places -/

section Places

variable {t : Outline TemplateNode}

/-- The kinds of at most so many siblings before a node, the nearest first. -/
def kindsBefore (t : Outline TemplateNode) : Nat → NodeId → List TemplateLine
  | 0, _ => []
  | steps + 1, id =>
    match t.previousSibling? id with
    | none => []
    | some previous => ((t.get? previous).map (·.kind)).toList ++ t.kindsBefore steps previous

/-- Where a node stands, looked up in the outline. -/
def place (t : Outline TemplateNode) (id : NodeId) : Place :=
  ⟨t.depth id, t.kindsBefore (t.childIndex id) id, t.isLastChild id⟩

/-- The kinds of some nodes. -/
def kinds (t : Outline TemplateNode) (ids : List NodeId) : List TemplateLine :=
  ids.filterMap fun id => (t.get? id).map (·.kind)

/-- Nodes that are siblings of each other and of no other nodes. -/
structure Row (t : Outline TemplateNode) (depth : Nat) (ids : List NodeId) : Prop where
  nodup : ids.Nodup
  lt_size : ∀ id ∈ ids, id < t.size
  siblings_eq : ∀ id ∈ ids, t.siblings id = ids
  depth_eq : ∀ id ∈ ids, t.depth id = depth

lemma Linked.row_children (h : t.Linked) (p : NodeId) : t.Row (t.depth p + 1) (t.children p) where
  nodup := (h.pairwise_children p).imp Nat.ne_of_lt
  lt_size _ := h.lt_size_of_mem_children
  siblings_eq _ := h.siblings_children
  depth_eq _ := h.depth_of_mem_children

lemma Linked.row_roots (h : t.Linked) : t.Row 0 t.roots where
  nodup := h.roots_eq ▸ List.nodup_range.filter _
  lt_size r hr := ((h.mem_roots_iff r).1 hr).1
  siblings_eq _ := h.siblings_root
  depth_eq r hr := h.shaped.depth_root r ((h.mem_roots_iff r).1 hr).2

section Row

variable {depth : Nat} {done rest : List NodeId} {id : NodeId}

lemma Row.notMem (h : t.Row depth (done ++ id :: rest)) : id ∉ done ∧ id ∉ rest := by
  obtain ⟨-, hrest, hdisjoint⟩ := List.nodup_append.1 h.nodup
  exact ⟨fun hmem => hdisjoint id hmem id List.mem_cons_self rfl, (List.nodup_cons.1 hrest).1⟩

lemma Row.kindsBefore_eq (h : t.Row depth (done ++ id :: rest)) :
    t.kindsBefore done.length id = (t.kinds done).reverse := by
  induction done using List.reverseRecOn generalizing id rest with
  | nil => rfl
  | append_singleton done last ih =>
      have hprevious := previousSibling?_eq (h.siblings_eq id (by simp)) h.notMem.1
      rw [List.append_assoc] at h
      rw [List.length_append, List.length_singleton, kindsBefore, hprevious,
        List.getLast?_concat]
      simp only [ih h, kinds, List.filterMap_append, List.reverse_append]
      cases hlast : t.get? last <;> simp [hlast]

/-- What is looked up about a node of a row is told by the nodes before it and after it. -/
lemma Row.place_eq (h : t.Row depth (done ++ id :: rest)) :
    t.place id = ⟨depth, (t.kinds done).reverse, rest.isEmpty⟩ := by
  have hsiblings := h.siblings_eq id (by simp)
  rw [place, h.depth_eq id (by simp), childIndex_eq hsiblings h.notMem.1, h.kindsBefore_eq,
    isLastChild_eq hsiblings h.notMem.2]

lemma exists_get? {t : Outline TemplateNode} (h : id < t.size) : ∃ node, t.get? id = some node :=
  ⟨_, by rw [get?, List.getElem?_eq_getElem h, Option.map_some]⟩

/-- A line has none before it if it is the first child. -/
lemma Row.isFirst_place (h : t.Row depth (done ++ id :: rest)) :
    (t.place id).isFirst = t.isFirstChild id := by
  rw [h.place_eq, isFirstChild_eq (h.siblings_eq id (by simp)) h.notMem.1]
  cases done with
  | nil => rfl
  | cons first done =>
      obtain ⟨node, hnode⟩ := exists_get? (h.lt_size first (by simp))
      simp [Place.isFirst, kinds, hnode]

end Row

end Places

end Outline

/-! ## The code -/

namespace CodeWriter

variable (w : CodeWriter) (t : Outline TemplateNode)

mutual

/-- The code of a line and the lines below it, each looking up its place in the outline. -/
def treeCodeAt (scope : Scope) : OutlineTree TemplateNode → Except TemplateError Text
  | .node id node children => do
    match ← w.lineCode scope (t.place id) (!children.isEmpty) node with
    | none => return []
    | some code =>
      let inner ← forestCodeAt code.scope children
      let again := if code.closing.isEmpty || children.isEmpty then [] else code.mark
      return code.mark ++ code.opening ++ code.body ++ inner ++ again ++ code.closing

/-- The code of lines on one level. -/
def forestCodeAt (scope : Scope) : List (OutlineTree TemplateNode) → Except TemplateError Text
  | [] => return []
  | tree :: rest => do
    let here ← treeCodeAt scope tree
    let after ← forestCodeAt scope rest
    return here ++ after

end

variable {w t}

lemma treeCode_eq_at {scope : Scope} {id : NodeId} {node : TemplateNode}
    {children : List (OutlineTree TemplateNode)}
    (hbelow : ∀ below, w.forestCode below ((t.place id).depth + 1) [] children
      = w.forestCodeAt t below children) :
    w.treeCode scope (t.place id) (.node id node children)
      = w.treeCodeAt t scope (.node id node children) := by
  rw [treeCode, treeCodeAt]
  refine bind_congr fun result => ?_
  cases result with
  | none => rfl
  | some code => simp only [hbelow]

/-- The tree under the first of some nodes comes first. -/
lemma treesWithin_cons {id : NodeId} (hid : id < t.size) (levels : Nat) (ids : List NodeId) :
    ∃ node, t.get? id = some node ∧ t.treesWithin (levels + 1) (id :: ids)
      = .node id node (t.treesWithin levels (t.children id)) :: t.treesWithin (levels + 1) ids := by
  have hnode : t.nodes[id]? = some t.nodes[id] := List.getElem?_eq_getElem hid
  refine ⟨t.nodes[id].data, by rw [Outline.get?, hnode, Option.map_some], ?_⟩
  rw [Outline.treesWithin, List.filterMap_cons, hnode, Option.map_some, Outline.children, hnode,
    Option.map_some, Option.getD_some, Outline.treesWithin]

lemma isEmpty_treesWithin {ids : List NodeId} (hids : ∀ id ∈ ids, id < t.size) (levels : Nat) :
    (t.treesWithin (levels + 1) ids).isEmpty = ids.isEmpty := by
  cases ids with
  | nil => rfl
  | cons id ids =>
      obtain ⟨node, -, htrees⟩ := treesWithin_cons (hids id List.mem_cons_self) levels ids
      rw [htrees]
      rfl

lemma forestCode_treesWithin (h : t.Linked) (levels : Nat) {depth : Nat} {done ids : List NodeId}
    (hrow : t.Row depth (done ++ ids)) (scope : Scope) :
    w.forestCode scope depth (t.kinds done).reverse (t.treesWithin levels ids)
      = w.forestCodeAt t scope (t.treesWithin levels ids) := by
  induction levels generalizing depth done ids scope with
  | zero => rw [Outline.treesWithin, forestCode, forestCodeAt]
  | succ levels ihLevels =>
      induction ids generalizing done with
      | nil => rw [Outline.treesWithin, List.filterMap_nil, forestCode, forestCodeAt]
      | cons id ids ih =>
          obtain ⟨node, hnode, htrees⟩ := treesWithin_cons (hrow.lt_size id (by simp)) levels ids
          have hlast : (t.treesWithin (levels + 1) ids).isEmpty = ids.isEmpty :=
            isEmpty_treesWithin (fun other hother => hrow.lt_size other (by simp [hother])) levels
          have hplace := hrow.place_eq
          have hhere : w.treeCode scope (t.place id) (.node id node
              (t.treesWithin levels (t.children id))) = w.treeCodeAt t scope (.node id node
              (t.treesWithin levels (t.children id))) := by
            refine treeCode_eq_at fun below => ?_
            exact @ihLevels (t.depth id + 1) [] (t.children id) (h.row_children id) below
          have hkinds : (t.kinds (done ++ [id])).reverse
              = node.kind :: (t.kinds done).reverse := by
            simp [Outline.kinds, hnode]
          have hafter := @ih (done ++ [id]) (by simpa using hrow)
          rw [hkinds] at hafter
          rw [hplace] at hhere
          rw [htrees, forestCode, forestCodeAt, hlast, hhere, OutlineTree.data, hafter]

lemma forestCode_trees (h : t.Linked) (scope : Scope) :
    w.forestCode scope 0 [] t.trees = w.forestCodeAt t scope t.trees :=
  @forestCode_treesWithin w t h t.size 0 [] t.roots h.row_roots scope

end CodeWriter

lemma linked_templateOutline (unit : IndentUnit) (lines : List OriginLine) :
    (templateOutline unit lines).Linked :=
  (Outline.linked_ofDepths (nodesFrom unit 1 lines)).foldl_clearChildren _

/-- **The place of a line is what can be looked up.**  The code of a template stays the same if
every line asks the outline for its place: how deep it is, which lines are before it, found by going
back from one to the other, and whether it is the last. -/
theorem templateCode_eq_at (settings : TemplateSettings) (blocks : Registry TextBlock)
    (unit : IndentUnit) (lines : List OriginLine) :
    let outline := templateOutline unit lines
    let w : CodeWriter := ⟨settings, blocks, lines⟩
    templateCode settings blocks outline lines
      = (w.forestCodeAt outline .outermost outline.trees).map joinBranches := by
  intro outline w
  rw [templateCode, CodeWriter.forestCode_trees (linked_templateOutline unit lines)]
  rfl

end Offside
