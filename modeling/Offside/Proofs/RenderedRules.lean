import Mathlib
import Offside.Proofs.AttributePlacement
import Offside.Proofs.OutlineWalk
import Offside.Stylesheet.Render

/-!
# The rules that every style writes

The nested style goes down the trees of an outline and carries a level with it; the other three
styles go through a list of rules.  Here all four are compared with one list
(`StyleRenderer.printedRules`), which says of each rule that has attributes what it selects, what it
sets, and how many of the rules above it have attributes.

**Layouts.**  What a style makes of one entry of the list is its layout.  A layout sees nothing of
the outline, so two styles cannot differ in which rules they write, in the order of these rules, in
their selectors or in their attributes.

**Levels.**  A rule without attributes passes on to the rules below it the level that it was given,
and a rule with attributes passes on one more.  By induction down the trees this level is the number
of ancestors that have attributes (`nestedTrees_treesWithin`).  The ancestors of a node are found by
going up, so this needs that going down and going up are inverse to each other, which is
`Outline.Linked`.

**Nothing is hidden.**  No line of a stylesheet detaches a rule (`OutlineBuilder.Complete`), so the
list goes through all rules in the order of their lines.
-/

namespace Offside

/-! ## Outlines from which nothing was detached -/

namespace Outline

variable {α : Type} (t : Outline α) (id : Nat) (f : α → α)

@[simp] lemma children_update (i : Nat) : (t.update id f).children i = t.children i := by
  rw [children, getElem?_update, children]
  cases t.nodes[i]? with
  | none => rfl
  | some node => by_cases hid : id = i <;> simp [hid]

@[simp] lemma roots_update : (t.update id f).roots = t.roots := rfl

end Outline

namespace OutlineBuilder

variable {α : Type} {b : OutlineBuilder α}

/-- The children of a node are all the nodes that were added under it. -/
structure Complete (b : OutlineBuilder α) : Prop where
  sound : b.Sound
  children_eq : ∀ p, b.outline.children p
    = (List.range b.outline.size).filter fun i => b.outline.parent? i = some p
  roots_eq : b.outline.roots
    = (List.range b.outline.size).filter fun i => b.outline.parent? i = none

lemma complete_empty : (empty : OutlineBuilder α).Complete :=
  ⟨sound_empty, fun _ => rfl, rfl⟩

namespace Complete

lemma push (h : b.Complete) (depth : Nat) (data : α) : (b.push depth data).Complete := by
  have hparents := Outline.parent?_append (t := b.outline) (b.nextParent? depth) data
  have hlt := h.sound.nextParent?_lt depth
  refine ⟨h.sound.push depth data, ?_, ?_⟩
  · intro p
    rw [outline_push, Outline.size_append, Outline.children_append data hlt, h.children_eq,
      filter_range_succ fun i hi => by rw [hparents, if_neg hi.ne]]
    simp only [hparents, if_true, decide_eq_true_eq]
    split_ifs <;> simp
  · rw [outline_push, Outline.size_append, Outline.roots_append, h.roots_eq,
      filter_range_succ fun i hi => by rw [hparents, if_neg hi.ne]]
    simp only [hparents, if_true, decide_eq_true_eq]
    split_ifs <;> simp

lemma update (h : b.Complete) (id : Nat) (f : α → α) : (b.update id f).Complete := by
  refine ⟨h.sound.update id f, ?_, ?_⟩
  · intro p
    simp [OutlineBuilder.update, h.children_eq]
  · simp [OutlineBuilder.update, h.roots_eq]

lemma linked (h : b.Complete) : b.outline.Linked :=
  ⟨h.sound.shaped, fun p => by rw [h.children_eq], h.roots_eq⟩

lemma attached (h : b.Complete) (n : Nat) : b.outline.Attached n := by
  intro p hp
  rw [h.children_eq]
  simp [hp, Outline.lt_size_of_parent? hp]

lemma preorder_eq (h : b.Complete) : b.outline.preorder = List.range b.outline.size :=
  h.linked.preorder_eq_range h.attached

end Complete

end OutlineBuilder

lemma StyleReading.complete_step {d d' : StyleReading} {line : SourceLine}
    (h : d.rules.Complete) (hstep : d.step line = .ok d') : d'.rules.Complete := by
  rcases step_cases hstep with
    ⟨name, value, -, -, -, rfl⟩ | ⟨selector, -, -, rfl⟩ | ⟨-, -, _, _, rfl⟩
  · simp only [StyleReading.set, Placement.apply]
    split
    · exact h.update _ _
    · exact h
  · exact h.push _ _
  · exact h

/-- No line of a stylesheet detaches a rule. -/
lemma exists_complete_of_parseStyles {unit : IndentUnit} {constants : List (Text × Text)}
    {source : Text} {parsed : StyleParse} (h : parseStyles unit constants source = .ok parsed) :
    ∃ rules : OutlineBuilder StyleRule, rules.Complete ∧ rules.outline = parsed.outline := by
  have hsame := map_outline_parseStyles unit constants source
  rw [h] at hsame
  cases hread : readStyles unit constants source with
  | error fault =>
      rw [hread] at hsame
      cases hsame
  | ok d =>
      rw [hread] at hsame
      refine ⟨d.rules, ?_, (Except.ok.inj hsame).symm⟩
      exact foldlM_induction (P := fun _ d => d.rules.Complete) OutlineBuilder.complete_empty
        (fun _ _ _ _ hd hstep => StyleReading.complete_step hd hstep) hread

namespace StyleRenderer

/-! ## The list of rules -/

/-- A rule as the styles see it. -/
structure PrintedRule where
  /-- How many of the rules above it have attributes. -/
  level : Nat
  selectors : List Text
  attributes : List (Text × Text)
  deriving Repr, DecidableEq

/-- Whether a node is a rule that has attributes. -/
def isWritten (t : StyleOutline) (id : NodeId) : Bool := (t.get? id).any StyleRule.hasAttributes

/-- What the styles see of a node. -/
def printedRule (t : StyleOutline) (id : NodeId) : PrintedRule where
  level := (t.ancestors id).countP (isWritten t)
  selectors := selectors t id
  attributes := ((t.get? id).map StyleRule.attributes).getD []

/-- The rules that have attributes, each before those below it. -/
def printedRules (t : StyleOutline) : List PrintedRule :=
  (t.preorder.filter (isWritten t)).map (printedRule t)

/-! ## Layouts -/

namespace PrintedRule

/-- The lines of a rule in the nested style, before they are indented. -/
def nestedLines (r : PrintedRule) : List Text :=
  (Text.join ", " r.selectors ++ " \x7b") ::
    r.attributes.map fun (name, value) => "  " ++ name ++ ": " ++ value ++ ";"

/-- A rule in the nested style: two blanks for each level before every line. -/
def nestedLayout (r : PrintedRule) : Text :=
  Text.join "\n" (r.nestedLines.map fun line => Text.times r.level "  " ++ line) ++ " \x7d\n"

/-- A rule in the expanded style. -/
def expandedLayout (r : PrintedRule) : Text :=
  let body : Text := r.attributes.flatMap fun (name, value) =>
    "  " ++ name ++ ": " ++ value ++ ";\n"
  Text.join ", " r.selectors ++ " \x7b\n" ++ body ++ "\x7d\n"

/-- A rule in the compact style. -/
def compactLayout (r : PrintedRule) : Text :=
  let body : Text := r.attributes.flatMap fun (name, value) => name ++ ":" ++ value ++ ";"
  Text.join ", " r.selectors ++ "\x7b" ++ body ++ "\x7d\n"

/-- A rule in the compressed style. -/
def compressedLayout (r : PrintedRule) : Text :=
  Text.join "," r.selectors ++ "\x7b" ++
    Text.join ";" (r.attributes.map fun (name, value) => name ++ ":" ++ value) ++ "\x7d"

end PrintedRule

variable {t : StyleOutline} {id : NodeId} {rule : StyleRule}

lemma isWritten_eq (h : t.get? id = some rule) : isWritten t id = rule.hasAttributes := by
  simp [isWritten, h]

lemma attributes_printedRule (h : t.get? id = some rule) :
    (printedRule t id).attributes = rule.attributes := by
  simp [printedRule, h]

lemma nestedBlock_eq (h : t.get? id = some rule) (hwritten : rule.hasAttributes = true) :
    nestedBlock t (printedRule t id).level id rule = (printedRule t id).nestedLayout := by
  rw [PrintedRule.nestedLayout, PrintedRule.nestedLines, attributes_printedRule h]
  cases hrule : rule.attributes with
  | nil => simp [StyleRule.hasAttributes, hrule] at hwritten
  | cons first rest =>
      have hjoin : ∀ line next : Text, ∀ lines : List Text,
          Text.join "\n" (line :: next :: lines) = line ++ "\n" ++ Text.join "\n" (next :: lines) :=
        fun _ _ _ => rfl
      simp only [nestedBlock, hrule, List.map_cons, hjoin]
      simp [selectorText, printedRule, Function.comp_def]

lemma expandedBlock_eq (h : t.get? id = some rule) :
    expandedBlock t id rule = (printedRule t id).expandedLayout := by
  rw [PrintedRule.expandedLayout, attributes_printedRule h]
  rfl

lemma compactBlock_eq (h : t.get? id = some rule) :
    compactBlock t id rule = (printedRule t id).compactLayout := by
  rw [PrintedRule.compactLayout, attributes_printedRule h]
  rfl

lemma compressedBlock_eq (h : t.get? id = some rule) :
    compressedBlock t id rule = (printedRule t id).compressedLayout := by
  rw [PrintedRule.compressedLayout, attributes_printedRule h]
  rfl

/-! ## The flat styles -/

/-- The rules that the flat styles go through are those of the list. -/
lemma map_renderedRules {block : NodeId → StyleRule → Text} {layout : PrintedRule → Text}
    (h : ∀ id rule, t.get? id = some rule → block id rule = layout (printedRule t id)) :
    (renderedRules t).map (fun (id, rule) => block id rule) = (printedRules t).map layout := by
  rw [renderedRules, printedRules]
  induction t.preorder with
  | nil => rfl
  | cons id ids ih =>
      cases hget : t.get? id with
      | none => simp [hget, isWritten, ih]
      | some rule =>
          by_cases hwritten : rule.hasAttributes = true
          · simp [hget, isWritten, hwritten, ih, h id rule hget]
          · simp [hget, isWritten, hwritten, ih]

lemma flatMap_renderedRules {block : NodeId → StyleRule → Text} {layout : PrintedRule → Text}
    (h : ∀ id rule, t.get? id = some rule → block id rule = layout (printedRule t id)) :
    (renderedRules t).flatMap (fun (id, rule) => block id rule)
      = (printedRules t).flatMap layout := by
  rw [List.flatMap_def, List.flatMap_def, ← map_renderedRules h]

/-! ## The nested style -/

/-- A child of a rule with attributes is one level deeper, any other child is on the same level. -/
lemma level_of_mem_children (h : t.Linked) {c : NodeId} (hc : c ∈ t.children id) :
    (printedRule t c).level
      = (printedRule t id).level + if isWritten t id = true then 1 else 0 := by
  have hancestors := h.shaped.ancestors_child (h.parent?_of_mem_children hc)
  simp only [printedRule, hancestors, List.countP_cons]

/-- Trees that stand on one level are written as the list says. -/
lemma nestedTrees_treesWithin (h : t.Linked) (levels level : Nat) (ids : List NodeId)
    (hids : ∀ id ∈ ids, (printedRule t id).level = level) :
    nestedTrees t level (t.treesWithin levels ids)
      = ((OutlineTree.preorderAll (t.treesWithin levels ids)).filter (isWritten t)).flatMap
          fun id => (printedRule t id).nestedLayout := by
  induction levels generalizing level ids with
  | zero => rfl
  | succ levels ih =>
      induction ids with
      | nil => rfl
      | cons id ids ihIds =>
          have hrest := ihIds fun other hother => hids other (List.mem_cons_of_mem id hother)
          have hlevel := hids id List.mem_cons_self
          cases hnode : t.nodes[id]? with
          | none =>
              rw [Outline.treesWithin, List.filterMap_cons_none (by rw [hnode]; rfl)]
              exact hrest
          | some node =>
              have hget : t.get? id = some node.data := by simp [Outline.get?, hnode]
              have hchildren : t.children id = node.children := by simp [Outline.children, hnode]
              -- The children are all on one level, which depends on this node alone.
              have hbelow := ih (level + if node.data.hasAttributes = true then 1 else 0)
                node.children fun c hc => by
                  rw [level_of_mem_children h (hchildren ▸ hc), hlevel, isWritten_eq hget]
              rw [Outline.treesWithin] at hrest ⊢
              rw [List.filterMap_cons_some (by rw [hnode]; rfl), OutlineTree.preorderAll,
                OutlineTree.preorder, nestedTrees, nestedTree, List.cons_append, List.filter_cons,
                List.filter_append, isWritten_eq hget, hrest]
              by_cases hwritten : node.data.hasAttributes = true
              · simp only [hwritten, if_true] at hbelow ⊢
                rw [hbelow, ← hlevel, nestedBlock_eq hget hwritten, List.flatMap_cons,
                  List.flatMap_append, List.append_assoc]
              · simp only [hwritten, if_false, Nat.add_zero, Bool.false_eq_true] at hbelow ⊢
                rw [hbelow, List.flatMap_append]

lemma nested_render (h : t.Linked) :
    nested.render t = (printedRules t).flatMap PrintedRule.nestedLayout := by
  have hroots : ∀ id ∈ t.roots, (printedRule t id).level = 0 := by
    intro id hid
    simp [printedRule, h.shaped.ancestors_root ((h.mem_roots_iff id).1 hid).2]
  rw [printedRules, List.flatMap_map]
  exact nestedTrees_treesWithin h t.size 0 t.roots hroots

/-- **The four styles write the same rules in the same order.**  In the outline of a stylesheet the
walk goes through all rules in the order of their lines.  Each style writes the rules that have
attributes in this order, each of them by a layout that is given the selectors and the attributes of
the rule and, in the nested style, how many of the rules above it have attributes. -/
theorem render_printedRules {unit : IndentUnit} {constants : List (Text × Text)} {source : Text}
    {parsed : StyleParse} (h : parseStyles unit constants source = .ok parsed) :
    let t := parsed.outline
    t.preorder = List.range t.size ∧
      nested.render t = (printedRules t).flatMap PrintedRule.nestedLayout ∧
      expanded.render t = Text.join "\n" ((printedRules t).map PrintedRule.expandedLayout) ∧
      compact.render t = (printedRules t).flatMap PrintedRule.compactLayout ∧
      compressed.render t = (printedRules t).flatMap PrintedRule.compressedLayout := by
  obtain ⟨rules, hcomplete, hrules⟩ := exists_complete_of_parseStyles h
  rw [← hrules]
  refine ⟨hcomplete.preorder_eq, nested_render hcomplete.linked, ?_, ?_, ?_⟩
  · exact congrArg (Text.join "\n") (map_renderedRules fun _ _ => expandedBlock_eq)
  · exact flatMap_renderedRules fun _ _ => compactBlock_eq
  · exact flatMap_renderedRules fun _ _ => compressedBlock_eq

/-- Rules without attributes at the top, in the middle and at the bottom of a tree. -/
def sparseSheet : Text :=
  ("ul, ol\n  li\n    :top 0\n    b\n      a\n        :left 1\n        :top 2\n    i\n"
    ++ "p\n  :top 3").toList

theorem render_printedRules_sparseSheet :
    ∃ parsed, parseStyles (.spaces 2) [] sparseSheet = .ok parsed ∧
      parsed.outline.size = 6 ∧
      (printedRules parsed.outline).map PrintedRule.level = [0, 1, 0] ∧
      nested.render parsed.outline
        = (printedRules parsed.outline).flatMap PrintedRule.nestedLayout ∧
      nested.render parsed.outline
        = ("ul li, ol li \x7b\n  top: 0; \x7d\n"
            ++ "  ul li b a, ol li b a \x7b\n    left: 1;\n    top: 2; \x7d\n"
            ++ "p \x7b\n  top: 3; \x7d\n").toList ∧
      compressed.render parsed.outline
        = ("ul li,ol li\x7btop:0\x7d"
            ++ "ul li b a,ol li b a\x7bleft:1;top:2\x7dp\x7btop:3\x7d").toList := by
  have hparsed : (parseStyles (.spaces 2) [] sparseSheet).map
      (fun parsed => (parsed.outline.size, printedRules parsed.outline))
        = .ok (6, [⟨0, ["ul li".toList, "ol li".toList], [("top".toList, "0".toList)]⟩,
            ⟨1, ["ul li b a".toList, "ol li b a".toList],
              [("left".toList, "1".toList), ("top".toList, "2".toList)]⟩,
            ⟨0, ["p".toList], [("top".toList, "3".toList)]⟩]) := by
    decide +kernel
  cases hparse : parseStyles (.spaces 2) [] sparseSheet with
  | error fault =>
      rw [hparse] at hparsed
      cases hparsed
  | ok parsed =>
      rw [hparse] at hparsed
      obtain ⟨hsize, hrules⟩ := Prod.mk.inj (Except.ok.inj hparsed)
      obtain ⟨-, hnested, -, -, hcompressed⟩ := render_printedRules hparse
      refine ⟨parsed, rfl, hsize, by rw [hrules]; rfl, hnested, ?_, ?_⟩
      · rw [hnested, hrules]
        decide +kernel
      · rw [hcompressed, hrules]
        decide +kernel

end StyleRenderer

end Offside
