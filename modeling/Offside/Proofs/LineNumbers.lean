import Mathlib
import Offside.Proofs.KeptStyles

/-!
# Line numbers only pass through

The number of a line is written into the rules, the warnings and the errors of a stylesheet, and
nothing is ever decided by it.  So the lines may be numbered in any other way: the run goes the same
way, and what comes out is numbered in that way.

Renumbering a state (`StyleBuilder.renumber`) goes along with every operation on it, up to taking in
a line (`StyleBuilder.step_renumber`), and so with a whole run (`StyleBuilder.foldlM_renumber`).  An
outline is renumbered by changing what its nodes hold (`Outline.mapData`), which keeps its shape.
The four styles write the same text before and after (`StyleRenderer.unnumbered_of_standard`).
-/

namespace Offside

/-! ## Outlines -/

/-- Change what a node holds. -/
def OutlineNode.mapData {α β : Type} (g : α → β) (node : OutlineNode α) : OutlineNode β :=
  ⟨g node.data, node.parent, node.children, node.depth⟩

namespace Outline

variable {α β : Type} (g : α → β) (t : Outline α)

/-- Change what every node holds. -/
def mapData (g : α → β) (t : Outline α) : Outline β :=
  ⟨t.nodes.map (OutlineNode.mapData g), t.roots⟩

@[simp] lemma size_mapData : (t.mapData g).size = t.size :=
  List.length_map _

@[simp] lemma getElem?_mapData (i : Nat) :
    (t.mapData g).nodes[i]? = t.nodes[i]?.map (OutlineNode.mapData g) :=
  List.getElem?_map

@[simp] lemma get?_mapData (i : Nat) : (t.mapData g).get? i = (t.get? i).map g := by
  simp [get?, Function.comp_def, OutlineNode.mapData]

@[simp] lemma parent?_mapData (i : Nat) : (t.mapData g).parent? i = t.parent? i := by
  simp only [parent?, getElem?_mapData]
  cases t.nodes[i]? <;> rfl

@[simp] lemma depth_mapData (i : Nat) : (t.mapData g).depth i = t.depth i := by
  simp [depth, Function.comp_def, OutlineNode.mapData]

@[simp] lemma ancestors_mapData (i : Nat) : (t.mapData g).ancestors i = t.ancestors i := by
  have hwithin : ∀ steps i, (t.mapData g).ancestorsWithin steps i = t.ancestorsWithin steps i := by
    intro steps
    induction steps with
    | zero => intro i; rfl
    | succ steps ih =>
        intro i
        simp only [ancestorsWithin, parent?_mapData, ih]
  exact hwithin i i

@[simp] lemma preorder_mapData : (t.mapData g).preorder = t.preorder := by
  have hwithin : ∀ levels ids, OutlineTree.preorderAll ((t.mapData g).treesWithin levels ids)
      = OutlineTree.preorderAll (t.treesWithin levels ids) := by
    intro levels
    induction levels with
    | zero => intro ids; rfl
    | succ levels ih =>
        intro ids
        induction ids with
        | nil => rfl
        | cons id ids ihIds =>
            simp only [treesWithin, List.filterMap_cons, getElem?_mapData] at ihIds ⊢
            cases t.nodes[id]? with
            | none => exact ihIds
            | some node =>
                simp only [Option.map_some, OutlineTree.preorderAll, OutlineTree.preorder,
                  OutlineNode.mapData, ih, ihIds]
  rw [preorder, preorder, trees, trees, size_mapData]
  exact hwithin t.size t.roots

variable {g}

lemma mapData_modify {f : OutlineNode α → OutlineNode α} {f' : OutlineNode β → OutlineNode β}
    (h : ∀ node, (f node).mapData g = f' (node.mapData g)) (id : NodeId) :
    (t.modify id f).mapData g = (t.mapData g).modify id f' := by
  simp only [mapData, modify, Outline.mk.injEq, and_true]
  refine List.ext_getElem? fun i => ?_
  simp only [List.getElem?_map, List.getElem?_modify]
  cases t.nodes[i]? with
  | none => rfl
  | some node => by_cases hid : id = i <;> simp [hid, h]

variable (g)

lemma mapData_append (parent : Option NodeId) (data : α) :
    (t.append parent data).mapData g = (t.mapData g).append parent (g data) := by
  cases parent with
  | none => simp [append, mapData, size, OutlineNode.mapData]
  | some p =>
      have hgrown : (t.modify p fun node =>
            { node with children := node.children ++ [t.size] }).mapData g
          = (t.mapData g).modify p fun node =>
              { node with children := node.children ++ [t.size] } := by
        refine t.mapData_modify ?_ p
        intro node
        rfl
      simp only [append, size_mapData, depth_mapData, ← hgrown]
      simp [mapData, OutlineNode.mapData]

lemma mapData_update {g} {f : α → α} {f' : β → β} (h : ∀ data, g (f data) = f' (g data))
    (id : NodeId) : (t.update id f).mapData g = (t.mapData g).update id f' := by
  refine t.mapData_modify (fun node => ?_) id
  simp [OutlineNode.mapData, h]

end Outline

namespace OutlineBuilder

variable {α β : Type} (b : OutlineBuilder α)

/-- Change what every node holds. -/
def mapData (g : α → β) (b : OutlineBuilder α) : OutlineBuilder β :=
  ⟨b.outline.mapData g, b.openPath⟩

lemma mapData_push (g : α → β) (depth : Nat) (data : α) :
    (b.push depth data).mapData g = (b.mapData g).push depth (g data) := by
  simp [push, mapData, Outline.mapData_append]

lemma mapData_update {g : α → β} {f : α → α} {f' : β → β} (h : ∀ data, g (f data) = f' (g data))
    (id : NodeId) : (b.update id f).mapData g = (b.mapData g).update id f' := by
  simp [update, mapData, Outline.mapData_update _ h]

end OutlineBuilder

/-! ## Renumbering -/

/-- Number a line in another way. -/
def SourceLine.renumber (f : Nat → Nat) (line : SourceLine) : SourceLine :=
  { line with number := f line.number }

/-- Number the line of a rule in another way. -/
def StyleRule.renumber (f : Nat → Nat) (rule : StyleRule) : StyleRule :=
  { rule with line := f rule.line }

/-- Number the line of a warning in another way. -/
def StyleWarning.renumber (f : Nat → Nat) : StyleWarning → StyleWarning
  | outsideAnyRule line name => outsideAnyRule (f line) name
  | noRuleAtLevel count => noRuleAtLevel count

/-- Number the line of an error in another way. -/
def StyleFault.renumber (f : Nat → Nat) (fault : StyleFault) : StyleFault :=
  { fault with line := f fault.line }

/-- Number the lines of an outline in another way. -/
def StyleOutline.renumber (f : Nat → Nat) (t : StyleOutline) : StyleOutline :=
  Outline.mapData (StyleRule.renumber f) t

lemma StyleRule.setAttributes_renumber (f : Nat → Nat) (rule : StyleRule)
    (given : List (Text × Text)) :
    (rule.setAttributes given).renumber f = (rule.renumber f).setAttributes given := by
  induction given generalizing rule with
  | nil => rfl
  | cons entry given ih => exact ih (rule.setAttribute entry.1 entry.2)

namespace StyleBuilder

variable (f : Nat → Nat) (b : StyleBuilder)

/-- Number the lines of a state in another way. -/
def renumber (f : Nat → Nat) (b : StyleBuilder) : StyleBuilder :=
  { b with
    rules := b.rules.mapData (StyleRule.renumber f)
    warnings := b.warnings.map (StyleWarning.renumber f) }

lemma flush_renumber : (b.renumber f).flush = b.flush.renumber f := by
  have htarget : (b.renumber f).pendingLevel.bind (b.renumber f).rules.openAt?
      = b.pendingLevel.bind b.rules.openAt? := rfl
  have hpending : (b.renumber f).pending = b.pending := rfl
  rw [flush, flush, hpending, htarget]
  split_ifs with hnone
  · rfl
  · cases b.pendingLevel.bind b.rules.openAt? with
    | none => simp [renumber, StyleWarning.renumber]
    | some id =>
        have hupdate : (b.rules.update id fun rule => rule.setAttributes b.pending).mapData
              (StyleRule.renumber f)
            = (b.rules.mapData (StyleRule.renumber f)).update id fun rule =>
                rule.setAttributes b.pending :=
          b.rules.mapData_update
            (fun rule => StyleRule.setAttributes_renumber f rule b.pending) id
        simp [renumber, hupdate]

/-- Hold an attribute back, after those of another level are set. -/
def hold (b : StyleBuilder) (level : Nat) (name value : Text) : StyleBuilder :=
  let settled := if b.pendingLevel.any (· != level) then b.flush else b
  { settled with
    pendingLevel := some level
    pending := setAttributeIn name value settled.pending }

lemma hold_renumber (level : Nat) (name value : Text) :
    (b.renumber f).hold level name value = (b.hold level name value).renumber f := by
  have hlevel : (b.renumber f).pendingLevel = b.pendingLevel := rfl
  rw [hold, hold, hlevel]
  split_ifs
  · rw [flush_renumber]
    rfl
  · rfl

lemma collect_eq (name value : Text) (depth line : Nat) :
    b.collect name value depth line
      = if depth < (nameIn (b.groupAt depth) name).2 then
          { b with
            group := b.groupAt depth
            warnings := b.warnings ++ [.outsideAnyRule line (nameIn (b.groupAt depth) name).1] }
        else
          { b with group := b.groupAt depth }.hold (depth - (nameIn (b.groupAt depth) name).2)
            (nameIn (b.groupAt depth) name).1 value := rfl

lemma collect_renumber (name value : Text) (depth line : Nat) :
    (b.renumber f).collect name value depth (f line)
      = (b.collect name value depth line).renumber f := by
  have hgroup : (b.renumber f).groupAt depth = b.groupAt depth := rfl
  rw [collect_eq, collect_eq, hgroup]
  split_ifs with houtside
  · simp [renumber, StyleWarning.renumber]
  · exact hold_renumber f { b with group := b.groupAt depth } _ _ value

/-- Taking in a line, numbered in one way or another. -/
lemma step_renumber (line : SourceLine) :
    (b.renumber f).step (line.renumber f)
      = ((b.step line).mapError (StyleFault.renumber f)).map (renumber f) := by
  have hcontent : (line.renumber f).content = line.content := rfl
  rw [step, step, hcontent]
  cases StyleLine.ofText line.content with
  | blank => rfl
  | comment => rfl
  | constant name value => rfl
  | group name => rfl
  | computed name expression =>
      have hcalculator : (b.renumber f).calculator = b.calculator := rfl
      simp only [hcalculator]
      cases b.calculator.calculate expression with
      | error cause => rfl
      | ok value =>
          exact congrArg Except.ok (collect_renumber f b name value line.depth line.number)
  | literal name value =>
      exact congrArg Except.ok (collect_renumber f b name value line.depth line.number)
  | rule selector =>
      have hflush : { b.renumber f with group := none }.flush
          = { b with group := none }.flush.renumber f := flush_renumber f { b with group := none }
      simp only [hflush]
      refine congrArg Except.ok ?_
      simp only [renumber, OutlineBuilder.mapData_push]
      rfl

/-- A run over lines that are numbered in another way. -/
lemma foldlM_renumber (lines : List SourceLine) :
    (lines.map (SourceLine.renumber f)).foldlM step (b.renumber f)
      = ((lines.foldlM step b).mapError (StyleFault.renumber f)).map (renumber f) := by
  induction lines generalizing b with
  | nil => rfl
  | cons line lines ih =>
      rw [List.map_cons, List.foldlM_cons, List.foldlM_cons, step_renumber]
      cases b.step line with
      | error fault => rfl
      | ok next => exact ih next

end StyleBuilder

/-! ## Output styles -/

namespace StyleRenderer

variable (f : Nat → Nat) (t : StyleOutline)

/-- A style that does not show how lines are numbered. -/
def Unnumbered (r : StyleRenderer) : Prop :=
  ∀ (f : Nat → Nat) (t : StyleOutline), r.render (StyleOutline.renumber f t) = r.render t

lemma selectorText_renumber (separator : Text) (id : NodeId) :
    selectorText separator (StyleOutline.renumber f t) id = selectorText separator t id := by
  have hfragments : StyleRule.fragments ∘ StyleRule.renumber f = StyleRule.fragments := rfl
  simp [selectorText, selectors, StyleOutline.renumber, hfragments]

/-- The flat styles go through the same rules. -/
lemma renderedRules_renumber :
    renderedRules (StyleOutline.renumber f t)
      = (renderedRules t).map fun entry => (entry.1, entry.2.renumber f) := by
  simp only [renderedRules, StyleOutline.renumber, Outline.preorder_mapData, List.map_filterMap]
  refine List.filterMap_congr fun id _ => ?_
  rw [Outline.get?_mapData]
  cases t.get? id with
  | none => rfl
  | some rule =>
      by_cases hwritten : rule.hasAttributes = true
      · have hsame : (rule.renumber f).hasAttributes = true := hwritten
        simp [hwritten, hsame]
      · have hsame : ¬(rule.renumber f).hasAttributes = true := hwritten
        simp [hwritten, hsame]

lemma map_renderedRules_renumber {block : StyleOutline → NodeId → StyleRule → Text}
    (h : ∀ id rule, block (StyleOutline.renumber f t) id (rule.renumber f) = block t id rule) :
    (renderedRules (StyleOutline.renumber f t)).map
        (fun (id, rule) => block (StyleOutline.renumber f t) id rule)
      = (renderedRules t).map fun (id, rule) => block t id rule := by
  simp [renderedRules_renumber, h, Function.comp_def]

lemma flatMap_renderedRules_renumber {block : StyleOutline → NodeId → StyleRule → Text}
    (h : ∀ id rule, block (StyleOutline.renumber f t) id (rule.renumber f) = block t id rule) :
    (renderedRules (StyleOutline.renumber f t)).flatMap
        (fun (id, rule) => block (StyleOutline.renumber f t) id rule)
      = (renderedRules t).flatMap fun (id, rule) => block t id rule := by
  rw [List.flatMap_def, List.flatMap_def, map_renderedRules_renumber f t h]

lemma nestedBlock_renumber (level : Nat) (id : NodeId) (rule : StyleRule) :
    nestedBlock (StyleOutline.renumber f t) level id (rule.renumber f)
      = nestedBlock t level id rule := by
  rw [nestedBlock, nestedBlock, selectorText_renumber]
  rfl

lemma nestedTrees_renumber (levels level : Nat) (ids : List NodeId) :
    nestedTrees (StyleOutline.renumber f t) level
        ((StyleOutline.renumber f t).treesWithin levels ids)
      = nestedTrees t level (t.treesWithin levels ids) := by
  induction levels generalizing level ids with
  | zero => rfl
  | succ levels ih =>
      induction ids with
      | nil => rfl
      | cons id ids ihIds =>
          have hnode : (StyleOutline.renumber f t).nodes[id]?
              = t.nodes[id]?.map (OutlineNode.mapData (StyleRule.renumber f)) :=
            Outline.getElem?_mapData _ t id
          simp only [Outline.treesWithin, List.filterMap_cons, hnode] at ihIds ⊢
          cases t.nodes[id]? with
          | none => exact ihIds
          | some node =>
              have hwritten : (node.data.renumber f).hasAttributes = node.data.hasAttributes := rfl
              simp only [Option.map_some, nestedTrees, nestedTree, OutlineNode.mapData, hwritten,
                nestedBlock_renumber, ih, ihIds]

lemma unnumbered_nested : nested.Unnumbered := by
  intro f t
  show nestedTrees _ 0 ((StyleOutline.renumber f t).treesWithin _ _) = nestedTrees t 0 t.trees
  rw [nestedTrees_renumber, Outline.trees, StyleOutline.renumber, Outline.size_mapData]
  rfl

lemma unnumbered_expanded : expanded.Unnumbered := by
  intro f t
  refine congrArg (Text.join "\n") (map_renderedRules_renumber f t fun id rule => ?_)
  rw [expandedBlock, expandedBlock, selectorText_renumber]
  rfl

lemma unnumbered_compact : compact.Unnumbered := by
  intro f t
  refine flatMap_renderedRules_renumber f t fun id rule => ?_
  rw [compactBlock, compactBlock, selectorText_renumber]
  rfl

lemma unnumbered_compressed : compressed.Unnumbered := by
  intro f t
  refine flatMap_renderedRules_renumber f t fun id rule => ?_
  rw [compressedBlock, compressedBlock, selectorText_renumber]
  rfl

/-- None of the four styles shows how lines are numbered. -/
lemma unnumbered_of_standard {style : Text} {renderer : StyleRenderer}
    (h : standard.get? style = some renderer) : renderer.Unnumbered := by
  have hmem := mem_standard h
  simp only [List.mem_cons, Prod.mk.injEq, List.not_mem_nil, or_false] at hmem
  rcases hmem with ⟨-, rfl⟩ | ⟨-, rfl⟩ | ⟨-, rfl⟩ | ⟨-, rfl⟩
  · exact unnumbered_nested
  · exact unnumbered_expanded
  · exact unnumbered_compact
  · exact unnumbered_compressed

end StyleRenderer

end Offside
