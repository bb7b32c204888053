import Mathlib
import Offside.Proofs.OutlineWalk
import Offside.Template.Code

/-!
# What becomes of the lines of a template

A line of a template that is not blank is a node of the outline that is compiled, or it stands below
a line that takes nothing and is dropped, or it is part of the raw input of a text block.  This file
says that exactly one of the three is the case.

**Two readings of depth.**  What is taken out of the outline is decided by depths in the outline,
and what a text block is handed is decided by the depths that lines are written at.  A line that is
written deeper than everything above it allows is less deep in the outline.  What is handed to a
block always stands below it (`CodeWriter.mem_ancestors_of_mem_blockLines`); the converse needs that
the lines in question are written deeper than the block (`CodeWriter.StandsDeeper`).

**Hiding lines.**  Text blocks, internal comments and dynamic includes hide what stands below them.
A line is compiled exactly if nothing above it hides it (`CodeWriter.reached_iff`), and a line that
is not has a compiled line above it that does (`CodeWriter.exists_hides`).  There is only one
(`CodeWriter.Hides.eq`), and what becomes of the line is up to its kind.
-/

namespace Offside

/-! ## The nodes of lines -/

lemma mem_nodesFrom_iff {unit : IndentUnit} {first : Nat} {lines : List OriginLine}
    {x : Nat × TemplateNode} :
    x ∈ nodesFrom unit first lines ↔ ∃ n line, lines[n]? = some line ∧
      Text.isBlankText line.text = false ∧
      x = (unit.depth line.text, ⟨first + n, Text.trim line.text, line.origin⟩) := by
  induction lines generalizing first with
  | nil => simp [nodesFrom]
  | cons line lines ih =>
      have hlater : x ∈ nodesFrom unit (first + 1) lines ↔ ∃ n later,
          (line :: lines)[n + 1]? = some later ∧ Text.isBlankText later.text = false ∧
          x = (unit.depth later.text, ⟨first + (n + 1), Text.trim later.text, later.origin⟩) := by
        rw [ih]
        simp only [List.getElem?_cons_succ, Nat.add_assoc, Nat.add_comm 1]
      rw [nodesFrom]
      split_ifs with hblank
      · rw [hlater]
        constructor
        · rintro ⟨n, hn⟩
          exact ⟨n + 1, hn⟩
        · rintro ⟨n, later, hn, hfull, hx⟩
          cases n with
          | zero =>
              cases hn
              rw [hblank] at hfull
              cases hfull
          | succ n => exact ⟨n, later, hn, hfull, hx⟩
      · rw [List.mem_cons, hlater]
        constructor
        · rintro (rfl | ⟨n, hn⟩)
          · exact ⟨0, line, rfl, by simpa using hblank, rfl⟩
          · exact ⟨n + 1, hn⟩
        · rintro ⟨n, later, hn, hfull, hx⟩
          cases n with
          | zero =>
              cases hn
              exact Or.inl hx
          | succ n => exact Or.inr ⟨n, later, hn, hfull, hx⟩

lemma pairwise_nodesFrom (unit : IndentUnit) (first : Nat) (lines : List OriginLine) :
    (nodesFrom unit first lines).Pairwise fun x y => x.2.line < y.2.line := by
  induction lines generalizing first with
  | nil => exact .nil
  | cons line lines ih =>
      rw [nodesFrom]
      split_ifs
      · exact ih (first + 1)
      · refine List.pairwise_cons.2 ⟨fun y hy => ?_, ih (first + 1)⟩
        obtain ⟨n, later, -, -, rfl⟩ := mem_nodesFrom_iff.1 hy
        change first < first + 1 + n
        omega

/-- A node of an outline stands for the line with a number. -/
def StandsFor (t : TemplateOutline) (i : NodeId) (n : Nat) : Prop :=
  ∃ node, t.get? i = some node ∧ node.line = n

namespace TemplateLine

/-- Whether a line is a text block. -/
def isTextBlock : TemplateLine → Bool
  | textBlock _ => true
  | _ => false

/-- Whether what stands below a line is dropped. -/
def dropsChildren : TemplateLine → Bool
  | internalComment => true
  | dynamicInclude _ => true
  | _ => false

lemma hidesChildren_eq (line : TemplateLine) :
    line.hidesChildren = (line.isTextBlock || line.dropsChildren) := by
  cases line <;> rfl

lemma not_isTextBlock_of_dropsChildren {line : TemplateLine} (h : line.dropsChildren = true) :
    line.isTextBlock = false := by
  cases line <;> first | rfl | cases h

end TemplateLine

namespace CodeWriter

variable {w : CodeWriter}

/-- The text of a line, by its number counted from one. -/
def lineText (w : CodeWriter) : Nat → Text
  | 0 => []
  | n + 1 => (w.lines[n]?.map OriginLine.text).getD []

/-- Whether there is more than white space on a line. -/
def hasContent (w : CodeWriter) (n : Nat) : Bool := !Text.isBlankText (w.lineText n)

/-- How deep a line is written. -/
def writtenDepth (w : CodeWriter) (n : Nat) : Nat := w.settings.indent.depth (w.lineText n)

/-- The nodes of the lines, with the depths they are written at. -/
def nodes (w : CodeWriter) : List (Nat × TemplateNode) := nodesFrom w.settings.indent 1 w.lines

/-- The outline of the lines before anything is taken out of it. -/
def fullOutline (w : CodeWriter) : TemplateOutline := .ofDepths w.nodes

/-- The outline of the lines. -/
def outline (w : CodeWriter) : TemplateOutline := templateOutline w.settings.indent w.lines

lemma get?_fullOutline {i : Nat} {node : TemplateNode} :
    w.fullOutline.get? i = some node ↔ ∃ x, w.nodes[i]? = some x ∧ x.2 = node := by
  rw [fullOutline, Outline.get?_ofDepths, Option.map_eq_some_iff]

lemma shaped_fullOutline (w : CodeWriter) : w.fullOutline.Shaped := Outline.shaped_ofDepths w.nodes

lemma outline_eq (w : CodeWriter) :
    w.outline = (w.fullOutline.preorder.filter (hidesChildrenOf w.fullOutline)).foldl
      Outline.clearChildren w.fullOutline := rfl

lemma get?_outline (i : Nat) : w.outline.get? i = w.fullOutline.get? i :=
  (Outline.sameShape_foldl_clearChildren _ _).get i

lemma standsFor_iff {i n : Nat} :
    StandsFor w.fullOutline i n ↔ ∃ x, w.nodes[i]? = some x ∧ x.2.line = n := by
  constructor
  · rintro ⟨node, hnode, hline⟩
    obtain ⟨x, hx, rfl⟩ := get?_fullOutline.1 hnode
    exact ⟨x, hx, hline⟩
  · rintro ⟨x, hx, hline⟩
    exact ⟨x.2, get?_fullOutline.2 ⟨x, hx, rfl⟩, hline⟩

lemma hasContent_of_getElem? {n : Nat} {line : OriginLine} (h : w.lines[n]? = some line) :
    w.hasContent (n + 1) = !Text.isBlankText line.text := by
  rw [hasContent, lineText, h, Option.map_some, Option.getD_some]

lemma writtenDepth_of_getElem? {n : Nat} {line : OriginLine} (h : w.lines[n]? = some line) :
    w.writtenDepth (n + 1) = w.settings.indent.depth line.text := by
  rw [writtenDepth, lineText, h, Option.map_some, Option.getD_some]

/-- What a node says about its line. -/
lemma node_spec {i : NodeId} {x : Nat × TemplateNode} (hx : w.nodes[i]? = some x) :
    w.hasContent x.2.line = true ∧ x.1 = w.writtenDepth x.2.line := by
  obtain ⟨n, line, hline, hfull, rfl⟩ := mem_nodesFrom_iff.1 (List.mem_of_getElem? hx)
  simp only [Nat.add_comm 1 n]
  rw [hasContent_of_getElem? hline, writtenDepth_of_getElem? hline, hfull]
  exact ⟨rfl, rfl⟩

/-- A line that is not blank is there. -/
lemma exists_of_hasContent {n : Nat} (hn : w.hasContent (n + 1) = true) :
    ∃ line, w.lines[n]? = some line ∧ Text.isBlankText line.text = false := by
  cases hline : w.lines[n]? with
  | none => simp [hasContent, lineText, hline, Text.isBlankText] at hn
  | some line => exact ⟨line, rfl, by simpa [hasContent_of_getElem? hline] using hn⟩

/-- Every line that is not blank has a node. -/
lemma exists_node {n : Nat} (hn : w.hasContent n = true) :
    ∃ (i : Nat) (x : Nat × TemplateNode), w.nodes[i]? = some x ∧ x.2.line = n := by
  have hmem : ∃ x ∈ w.nodes, x.2.line = n := by
    cases n with
    | zero => cases hn
    | succ n =>
        obtain ⟨line, hline, hfull⟩ := exists_of_hasContent hn
        exact ⟨_, mem_nodesFrom_iff.2 ⟨n, line, hline, hfull, rfl⟩, Nat.add_comm 1 n⟩
  obtain ⟨x, hx, hline⟩ := hmem
  obtain ⟨i, hi⟩ := List.mem_iff_getElem?.1 hx
  exact ⟨i, x, hi, hline⟩

/-- Nodes are in the order of their lines. -/
lemma line_lt_iff {i j : Nat} {x y : Nat × TemplateNode} (hx : w.nodes[i]? = some x)
    (hy : w.nodes[j]? = some y) : x.2.line < y.2.line ↔ i < j := by
  have hlt : ∀ {i j : Nat} {x y : Nat × TemplateNode}, w.nodes[i]? = some x →
      w.nodes[j]? = some y → i < j → x.2.line < y.2.line := by
    intro i j x y hx hy hij
    obtain ⟨hi, rfl⟩ := List.getElem?_eq_some_iff.1 hx
    obtain ⟨hj, rfl⟩ := List.getElem?_eq_some_iff.1 hy
    exact List.pairwise_iff_getElem.1 (pairwise_nodesFrom _ _ _) i j hi hj hij
  refine ⟨fun hline => ?_, hlt hx hy⟩
  by_contra hij
  rcases (not_lt.1 hij).lt_or_eq with hji | rfl
  · exact absurd (hlt hy hx hji) hline.asymm
  · rw [hx] at hy
    cases hy
    exact hline.false

lemma line_le_of_le {i j : Nat} {x y : Nat × TemplateNode} (hx : w.nodes[i]? = some x)
    (hy : w.nodes[j]? = some y) (hij : i ≤ j) : x.2.line ≤ y.2.line := by
  have hji := line_lt_iff hy hx
  omega

/-! ## The raw input of a text block -/

/-- Whether a line goes on with the input of a text block that is written at a depth. -/
def continuesBlock (w : CodeWriter) (depth : Nat) (line : OriginLine) : Bool :=
  Text.isBlankText line.text || depth < w.settings.indent.depth line.text

/-- The numbers of the lines that are handed to a text block: those after its own, as long as they
are blank or written deeper. -/
def blockLines (w : CodeWriter) (block : TemplateNode) : List Nat :=
  List.range' (block.line + 1)
    ((w.lines.drop block.line).takeWhile (w.continuesBlock (w.writtenDepth block.line))).length

/-- Every line after `block` up to `n` is written deeper than `block`, blank ones left out. -/
def StandsDeeper (w : CodeWriter) (block n : Nat) : Prop :=
  ∀ m, block < m → m ≤ n → w.hasContent m = true → w.writtenDepth block < w.writtenDepth m

lemma lt_length_takeWhile_iff {α : Type} {p : α → Bool} {l : List α} {k : Nat} :
    k < (l.takeWhile p).length ↔ ∀ j ≤ k, ∃ a, l[j]? = some a ∧ p a = true := by
  induction l generalizing k with
  | nil =>
      refine ⟨fun hk => absurd hk (Nat.not_lt_zero k), fun hall => ?_⟩
      obtain ⟨a, ha, -⟩ := hall k le_rfl
      cases ha
  | cons a l ih =>
      rw [List.takeWhile_cons]
      split_ifs with ha
      · cases k with
        | zero => simp [ha]
        | succ k =>
            rw [List.length_cons, Nat.add_lt_add_iff_right, ih]
            constructor
            · intro hall j hj
              cases j with
              | zero => exact ⟨a, rfl, ha⟩
              | succ j => exact hall j (by omega)
            · exact fun hall j hj => hall (j + 1) (by omega)
      · refine ⟨fun hk => absurd hk (Nat.not_lt_zero k), fun hall => ?_⟩
        obtain ⟨first, hfirst, hp⟩ := hall 0 (Nat.zero_le k)
        cases hfirst
        exact absurd hp ha

/-- The lines that are handed to a block, blank ones left out: those that follow it with nothing in
between that is not deeper. -/
lemma mem_blockLines_iff {block : TemplateNode} {n : Nat} (hn : w.hasContent n = true) :
    n ∈ w.blockLines block ↔ block.line < n ∧ w.StandsDeeper block.line n := by
  rw [blockLines, List.mem_range'_1]
  constructor
  · rintro ⟨hlt, hcount⟩
    refine ⟨hlt, fun m hbm hmn hm => ?_⟩
    obtain ⟨k, rfl⟩ := Nat.exists_eq_add_of_lt hbm
    have hk : k < ((w.lines.drop block.line).takeWhile
        (w.continuesBlock (w.writtenDepth block.line))).length := by omega
    obtain ⟨line, hline, hdeep⟩ := lt_length_takeWhile_iff.1 hk k le_rfl
    rw [List.getElem?_drop] at hline
    rw [hasContent_of_getElem? hline] at hm
    rw [writtenDepth_of_getElem? hline]
    have hfull : Text.isBlankText line.text = false := by simpa using hm
    simpa [continuesBlock, hfull] using hdeep
  · rintro ⟨hlt, hdeeper⟩
    refine ⟨hlt, ?_⟩
    obtain ⟨k, rfl⟩ := Nat.exists_eq_add_of_lt hlt
    obtain ⟨last, hlast, -⟩ := exists_of_hasContent hn
    have hlength := (List.getElem?_eq_some_iff.1 hlast).1
    have hcount : k < ((w.lines.drop block.line).takeWhile
        (w.continuesBlock (w.writtenDepth block.line))).length := by
      rw [lt_length_takeWhile_iff]
      intro j hj
      have hline : w.lines[block.line + j]? = some (w.lines[block.line + j]) :=
        List.getElem?_eq_getElem (by omega)
      refine ⟨_, (List.getElem?_drop).trans hline, ?_⟩
      have hdeep := hdeeper (block.line + j + 1) (by omega) (by omega)
      rw [hasContent_of_getElem? hline, writtenDepth_of_getElem? hline] at hdeep
      simpa [continuesBlock, or_iff_not_imp_left] using hdeep
    omega

/-- The texts of the lines that are handed to a block. -/
lemma map_lineText_blockLines (w : CodeWriter) (block : TemplateNode) :
    (w.blockLines block).map w.lineText
      = ((w.lines.drop block.line).takeWhile
          (w.continuesBlock (w.writtenDepth block.line))).map OriginLine.text := by
  refine List.ext_getElem (by simp [blockLines]) fun k hk hk' => ?_
  rw [List.length_map] at hk'
  have htake := (List.takeWhile_prefix (w.continuesBlock (w.writtenDepth block.line))
    (l := w.lines.drop block.line)).getElem hk'
  have hnumber : block.line + 1 + k = block.line + k + 1 := by omega
  simp only [List.getElem_map, htake, blockLines, List.getElem_range', List.getElem_drop, one_mul,
    hnumber, lineText]
  rw [List.getElem?_eq_getElem, Option.map_some, Option.getD_some]

/-- What is handed to a block stands below it. -/
lemma mem_ancestors_of_mem_blockLines {b i n : Nat} {block : TemplateNode}
    (hb : w.fullOutline.get? b = some block) (hi : StandsFor w.fullOutline i n)
    (hn : n ∈ w.blockLines block) : b ∈ w.fullOutline.ancestors i := by
  obtain ⟨x, hx, rfl⟩ := get?_fullOutline.1 hb
  obtain ⟨y, hy, rfl⟩ := standsFor_iff.1 hi
  obtain ⟨hlt, hdeeper⟩ := (mem_blockLines_iff (node_spec hy).1).1 hn
  refine (w.shaped_fullOutline.mem_ancestors_iff b i).2 ?_
  refine Outline.below_ofDepths w.nodes hx ((line_lt_iff hx hy).1 hlt) fun j hbj hji => ?_
  have hjlt : j < w.nodes.length := hji.trans_lt (List.getElem?_eq_some_iff.1 hy).1
  have hj := List.getElem?_eq_getElem hjlt
  obtain ⟨hfull, hdepth⟩ := node_spec hj
  refine ⟨_, hj, ?_⟩
  rw [hdepth, (node_spec hx).2]
  exact hdeeper _ ((line_lt_iff hx hj).2 hbj) (line_le_of_le hj hy hji) hfull

/-- The text that a block is handed is that of its lines, without the indentation that they have
from standing there and without the blank lines at the end. -/
lemma blockSource_eq {b : Nat} {block : TemplateNode} (hb : w.fullOutline.get? b = some block) :
    w.blockSource block
      = Text.join "\n" (((w.blockLines block).map fun n =>
          w.settings.indent.strip (w.writtenDepth block.line + 1) (w.lineText n)).reverse.dropWhile
            Text.isBlankText).reverse := by
  obtain ⟨x, hx, rfl⟩ := get?_fullOutline.1 hb
  obtain ⟨n, own, hown, -, hnode⟩ := mem_nodesFrom_iff.1 (List.mem_of_getElem? hx)
  have hline : x.2.line = n + 1 := by
    rw [hnode, Nat.add_comm]
  have hdepth : w.writtenDepth x.2.line = w.settings.indent.depth own.text := by
    rw [hline, writtenDepth_of_getElem? hown]
  have hbody : (w.blockLines x.2).map (fun n =>
        w.settings.indent.strip (w.writtenDepth x.2.line + 1) (w.lineText n))
      = ((w.lines.drop x.2.line).takeWhile (w.continuesBlock (w.writtenDepth x.2.line))).map
          fun line => w.settings.indent.strip (w.writtenDepth x.2.line + 1) line.text := by
    have htexts := congrArg (List.map (w.settings.indent.strip (w.writtenDepth x.2.line + 1)))
      (w.map_lineText_blockLines x.2)
    rwa [List.map_map, List.map_map] at htexts
  rw [hbody, hdepth, blockSource, hline, Nat.add_sub_cancel, hown]
  rfl

/-! ## Hidden lines -/

/-- A node that is reached hides another one that stands below it. -/
structure Hides (w : CodeWriter) (a i : Nat) : Prop where
  reached : a ∈ w.outline.preorder
  above : a ∈ w.fullOutline.ancestors i
  hides : hidesChildrenOf w.fullOutline a = true

/-- A node is reached exactly if nothing above it hides what stands below. -/
lemma reached_iff (i : Nat) :
    i ∈ w.outline.preorder ↔ i < w.nodes.length ∧
      ∀ a ∈ w.fullOutline.ancestors i, hidesChildrenOf w.fullOutline a = false := by
  have hlinked : w.fullOutline.Linked := Outline.linked_ofDepths w.nodes
  have hattached : ∀ n, w.fullOutline.Attached n := Outline.attached_ofDepths w.nodes
  have hsize : w.fullOutline.size = w.nodes.length := Outline.size_ofDepths w.nodes
  rw [outline_eq, hlinked.mem_preorder_foldl_clearChildren hattached,
    hlinked.preorder_eq_range hattached, hsize]
  refine and_congr_right fun hi => forall₂_congr fun a ha => ?_
  have hai := ((w.shaped_fullOutline.mem_ancestors_iff a i).1 ha).1
  simp [hai.trans hi]

lemma Hides.not_reached {a i : Nat} (h : w.Hides a i) : i ∉ w.outline.preorder := by
  intro hi
  have hshown := ((reached_iff i).1 hi).2 a h.above
  rw [h.hides] at hshown
  cases hshown

/-- What is hidden is hidden by one node. -/
lemma Hides.eq {a b i : Nat} (ha : w.Hides a i) (hb : w.Hides b i) : a = b := by
  -- Of two, the earlier one would hide the later one.
  have hnot : ∀ {a b : Nat}, w.Hides a i → w.Hides b i → ¬ a < b := by
    intro a b ha hb hab
    have hshaped := w.shaped_fullOutline
    have hbelow := ((hshaped.mem_ancestors_iff a i).1 ha.above).of_lt
      ((hshaped.mem_ancestors_iff b i).1 hb.above) hab
    have hhides : w.Hides a b := ⟨ha.reached, (hshaped.mem_ancestors_iff a b).2 hbelow, ha.hides⟩
    exact hhides.not_reached hb.reached
  exact le_antisymm (not_lt.1 (hnot hb ha)) (not_lt.1 (hnot ha hb))

/-- A node that is not reached is hidden. -/
lemma exists_hides {i : Nat} (hi : i < w.nodes.length) (hnot : i ∉ w.outline.preorder) :
    ∃ a, w.Hides a i := by
  classical
  have hshaped := w.shaped_fullOutline
  have hhidden : ∃ a, a ∈ w.fullOutline.ancestors i ∧ hidesChildrenOf w.fullOutline a = true := by
    by_contra hnone
    refine hnot ((reached_iff i).2 ⟨hi, fun a ha => ?_⟩)
    by_contra hhides
    exact hnone ⟨a, ha, by simpa using hhides⟩
  -- The first of the hiding nodes above has none above itself.
  obtain ⟨habove, hhides⟩ := Nat.find_spec hhidden
  have hbelow := (hshaped.mem_ancestors_iff _ i).1 habove
  refine ⟨Nat.find hhidden, (reached_iff _).2 ⟨hbelow.1.trans hi, fun c hc => ?_⟩, habove, hhides⟩
  have hc' := (hshaped.mem_ancestors_iff c _).1 hc
  by_contra hcHides
  exact Nat.find_min hhidden hc'.1
    ⟨(hshaped.mem_ancestors_iff c i).2 (hc'.trans hbelow), by simpa using hcHides⟩

lemma hidesChildrenOf_of_get? {t : TemplateOutline} {a : Nat} {node : TemplateNode}
    (h : t.get? a = some node) : hidesChildrenOf t a = node.kind.hidesChildren := by
  rw [hidesChildrenOf, h, Option.any_some]

/-! ## The use of a line -/

/-- What a line of a template is used for. -/
inductive LineUse where
  | compiled
  | dropped
  | raw
  deriving Repr, DecidableEq

/-- A block that is reached is handed the line with a number. -/
def Hands (w : CodeWriter) (b n : Nat) : Prop :=
  b ∈ w.outline.preorder ∧ ∃ block, w.outline.get? b = some block ∧
    block.kind.isTextBlock = true ∧ n ∈ w.blockLines block

/-- A node that is reached drops what stands below it, and another node stands there. -/
def Drops (w : CodeWriter) (a i : Nat) : Prop :=
  a ∈ w.outline.preorder ∧ a ∈ w.fullOutline.ancestors i ∧
    ∃ node, w.outline.get? a = some node ∧ node.kind.dropsChildren = true

/-- What it is for a line to have a use. -/
def IsUsed (w : CodeWriter) (n : Nat) : LineUse → Prop
  | .compiled => ∃ i ∈ w.outline.preorder, StandsFor w.outline i n
  | .dropped => ∃ i, StandsFor w.fullOutline i n ∧ ∃ a, w.Drops a i
  | .raw => ∃! b, w.Hands b n

/-- A line is written deeper than the text blocks that are above it in the outline, and so is
everything between. -/
def DeeperThanBlocks (w : CodeWriter) (n : Nat) : Prop :=
  ∀ i, StandsFor w.fullOutline i n → ∀ b ∈ w.fullOutline.ancestors i, b ∈ w.outline.preorder →
    ∀ block, w.outline.get? b = some block → block.kind.isTextBlock = true →
      w.StandsDeeper block.line n

lemma standsFor_outline {i n : Nat} : StandsFor w.outline i n ↔ StandsFor w.fullOutline i n := by
  simp only [StandsFor, get?_outline]

lemma standsFor_unique {i j n : Nat} (hi : StandsFor w.fullOutline i n)
    (hj : StandsFor w.fullOutline j n) : i = j := by
  obtain ⟨x, hx, hxn⟩ := standsFor_iff.1 hi
  obtain ⟨y, hy, hyn⟩ := standsFor_iff.1 hj
  have hij := line_lt_iff hx hy
  have hji := line_lt_iff hy hx
  omega

/-- A block that is handed a line hides it. -/
lemma Hands.hides {b i n : Nat} (h : w.Hands b n) (hi : StandsFor w.fullOutline i n) :
    w.Hides b i := by
  obtain ⟨hreached, block, hblock, htext, hn⟩ := h
  rw [get?_outline] at hblock
  refine ⟨hreached, mem_ancestors_of_mem_blockLines hblock hi hn, ?_⟩
  rw [hidesChildrenOf_of_get? hblock, TemplateLine.hidesChildren_eq, htext, Bool.true_or]

lemma Drops.hides {a i : Nat} (h : w.Drops a i) : w.Hides a i := by
  obtain ⟨hreached, habove, node, hnode, hdrops⟩ := h
  rw [get?_outline] at hnode
  refine ⟨hreached, habove, ?_⟩
  rw [hidesChildrenOf_of_get? hnode, TemplateLine.hidesChildren_eq, hdrops, Bool.or_true]

lemma hasContent_of_standsFor {i n : Nat} (h : StandsFor w.fullOutline i n) :
    w.hasContent n = true := by
  obtain ⟨x, hx, rfl⟩ := standsFor_iff.1 h
  exact (node_spec hx).1

lemma line_lt_of_mem_ancestors {b i n : Nat} {block : TemplateNode}
    (hblock : w.fullOutline.get? b = some block) (hi : StandsFor w.fullOutline i n)
    (habove : b ∈ w.fullOutline.ancestors i) : block.line < n := by
  obtain ⟨x, hx, rfl⟩ := get?_fullOutline.1 hblock
  obtain ⟨y, hy, rfl⟩ := standsFor_iff.1 hi
  exact (line_lt_iff hx hy).2 ((w.shaped_fullOutline.mem_ancestors_iff b i).1 habove).1

/-- A block is handed the lines below it that are written deeper. -/
lemma hands_of_standsDeeper {b i n : Nat} {block : TemplateNode} (hreached : b ∈ w.outline.preorder)
    (hblock : w.outline.get? b = some block) (htext : block.kind.isTextBlock = true)
    (hi : StandsFor w.fullOutline i n) (hbi : b ∈ w.fullOutline.ancestors i)
    (hdeeper : w.StandsDeeper block.line n) : w.Hands b n := by
  refine ⟨hreached, block, hblock, htext, ?_⟩
  rw [get?_outline] at hblock
  exact (mem_blockLines_iff (hasContent_of_standsFor hi)).2
    ⟨line_lt_of_mem_ancestors hblock hi hbi, hdeeper⟩

lemma isUsed_compiled_iff {i n : Nat} (hi : StandsFor w.fullOutline i n) :
    w.IsUsed n .compiled ↔ i ∈ w.outline.preorder := by
  constructor
  · rintro ⟨j, hj, hjn⟩
    obtain rfl := standsFor_unique (standsFor_outline.1 hjn) hi
    exact hj
  · exact fun hreached => ⟨i, hreached, standsFor_outline.2 hi⟩

/-- What is used in another way than being compiled is hidden. -/
lemma exists_hides_of_isUsed {i n : Nat} {use : LineUse} (hi : StandsFor w.fullOutline i n)
    (h : w.IsUsed n use) (huse : use ≠ .compiled) : ∃ a, w.Hides a i := by
  cases use with
  | compiled => exact absurd rfl huse
  | dropped =>
      obtain ⟨j, hj, a, ha⟩ := h
      obtain rfl := standsFor_unique hj hi
      exact ⟨a, ha.hides⟩
  | raw =>
      obtain ⟨b, hb, -⟩ := h
      exact ⟨b, hb.hides hi⟩

section Hidden

variable {a i n : Nat} {node : TemplateNode}

/-- A hidden line is dropped if what hides it is no text block. -/
lemma Hides.isUsed_dropped_iff (h : w.Hides a i) (hi : StandsFor w.fullOutline i n)
    (hnode : w.outline.get? a = some node) :
    w.IsUsed n .dropped ↔ node.kind.isTextBlock = false := by
  constructor
  · rintro ⟨j, hj, c, hc⟩
    obtain rfl := standsFor_unique hj hi
    obtain rfl := hc.hides.eq h
    obtain ⟨-, -, other, hother, hdrops⟩ := hc
    rw [hnode] at hother
    cases hother
    exact TemplateLine.not_isTextBlock_of_dropsChildren hdrops
  · intro htext
    have hkind := h.hides
    rw [hidesChildrenOf_of_get? ((get?_outline a).symm.trans hnode),
      TemplateLine.hidesChildren_eq, htext, Bool.false_or] at hkind
    exact ⟨i, hi, a, h.reached, h.above, node, hnode, hkind⟩

/-- A hidden line is raw input if what hides it is a text block. -/
lemma Hides.isUsed_raw_iff (h : w.Hides a i) (hi : StandsFor w.fullOutline i n)
    (hnode : w.outline.get? a = some node) (hdeeper : w.DeeperThanBlocks n) :
    w.IsUsed n .raw ↔ node.kind.isTextBlock = true := by
  constructor
  · rintro ⟨b, hb, -⟩
    obtain rfl := (hb.hides hi).eq h
    obtain ⟨-, block, hblock, htext, -⟩ := hb
    rw [hnode] at hblock
    cases hblock
    exact htext
  · intro htext
    have hhands := hands_of_standsDeeper h.reached hnode htext hi h.above
      (hdeeper i hi a h.above h.reached node hnode htext)
    exact ⟨a, hhands, fun b hb => (hb.hides hi).eq h⟩

end Hidden

/-- A line has one use. -/
lemma existsUnique_isUsed {n : Nat} (hn : w.hasContent n = true) (hdeeper : w.DeeperThanBlocks n) :
    ∃! use, w.IsUsed n use := by
  obtain ⟨i, x, hx, rfl⟩ := exists_node hn
  have hi : StandsFor w.fullOutline i x.2.line := standsFor_iff.2 ⟨x, hx, rfl⟩
  by_cases hreached : i ∈ w.outline.preorder
  · refine ⟨.compiled, (isUsed_compiled_iff hi).2 hreached, fun use huse => ?_⟩
    by_contra hother
    obtain ⟨a, ha⟩ := exists_hides_of_isUsed hi huse hother
    exact ha.not_reached hreached
  · obtain ⟨a, ha⟩ := exists_hides (List.getElem?_eq_some_iff.1 hx).1 hreached
    obtain ⟨node, hnode⟩ : ∃ node, w.outline.get? a = some node := by
      have hhides := ha.hides
      rw [hidesChildrenOf, Option.any_eq_true] at hhides
      obtain ⟨node, hnode, -⟩ := hhides
      exact ⟨node, (get?_outline a).trans hnode⟩
    have hcompiled : ¬ w.IsUsed x.2.line .compiled := mt (isUsed_compiled_iff hi).1 hreached
    have hdropped := ha.isUsed_dropped_iff hi hnode
    have hraw := ha.isUsed_raw_iff hi hnode hdeeper
    cases htext : node.kind.isTextBlock with
    | true =>
        refine ⟨.raw, hraw.2 htext, fun use huse => ?_⟩
        cases use with
        | compiled => exact absurd huse hcompiled
        | dropped => simp [hdropped.1 huse] at htext
        | raw => rfl
    | false =>
        refine ⟨.dropped, hdropped.2 htext, fun use huse => ?_⟩
        cases use with
        | compiled => exact absurd huse hcompiled
        | dropped => rfl
        | raw => simp [hraw.1 huse] at htext

/-- Where everything below a block is written deeper, so is everything between. -/
lemma standsDeeper_of_below {b i : Nat} {x y : Nat × TemplateNode} (hx : w.nodes[b]? = some x)
    (hy : w.nodes[i]? = some y) (hbelow : w.fullOutline.Below b i)
    (hdeeper : ∀ k z, w.nodes[k]? = some z → w.fullOutline.Below b k → x.1 < z.1) :
    w.StandsDeeper x.2.line y.2.line := by
  intro m hbm hmn hm
  obtain ⟨k, z, hz, rfl⟩ := exists_node hm
  have hki : k ≤ i := by
    have hik := line_lt_iff hy hz
    omega
  have hbelow' : w.fullOutline.Below b k :=
    ⟨(line_lt_iff hx hz).1 hbm, fun j hbj hjk => hbelow.2 j hbj (hjk.trans hki)⟩
  rw [← (node_spec hx).2, ← (node_spec hz).2]
  exact hdeeper k z hz hbelow'

/-- What stands below a block is written deeper than it, unless the block itself is written deeper
than it stands. -/
lemma standsDeeper_of_depth_eq {b i n : Nat} {block : TemplateNode}
    (hblock : w.outline.get? b = some block)
    (hdepth : w.writtenDepth block.line = w.fullOutline.depth b)
    (hi : StandsFor w.fullOutline i n) (habove : b ∈ w.fullOutline.ancestors i) :
    w.StandsDeeper block.line n := by
  rw [get?_outline] at hblock
  obtain ⟨x, hx, rfl⟩ := get?_fullOutline.1 hblock
  obtain ⟨y, hy, rfl⟩ := standsFor_iff.1 hi
  have hbelow := (w.shaped_fullOutline.mem_ancestors_iff b i).1 habove
  refine standsDeeper_of_below hx hy hbelow fun k z hz hbelow' => ?_
  have hwritten : w.fullOutline.depth k ≤ z.1 := by
    rw [fullOutline, Outline.depth_ofDepths w.nodes hz]
    exact min_le_left _ _
  rw [(node_spec hx).2, hdepth]
  exact (hbelow'.2 k hbelow'.1 le_rfl).trans_le hwritten

/-- If everything below a block is written deeper than it, the block is handed just that. -/
lemma mem_blockLines_iff_of_deeper {b : Nat} {block : TemplateNode}
    (hreached : b ∈ w.outline.preorder) (hblock : w.outline.get? b = some block)
    (htext : block.kind.isTextBlock = true)
    (hdeeper : ∀ i n, StandsFor w.fullOutline i n → b ∈ w.fullOutline.ancestors i →
      w.writtenDepth block.line < w.writtenDepth n) {n : Nat} (hn : w.hasContent n = true) :
    n ∈ w.blockLines block ↔ ∃ i, StandsFor w.fullOutline i n ∧ b ∈ w.fullOutline.ancestors i ∧
      i ∉ w.outline.preorder := by
  have hshaped := w.shaped_fullOutline
  obtain ⟨i, y, hy, rfl⟩ := exists_node hn
  have hi : StandsFor w.fullOutline i y.2.line := standsFor_iff.2 ⟨y, hy, rfl⟩
  constructor
  · intro hmem
    have hhides := Hands.hides ⟨hreached, block, hblock, htext, hmem⟩ hi
    exact ⟨i, hi, hhides.above, hhides.not_reached⟩
  · rintro ⟨j, hj, habove, -⟩
    obtain rfl := standsFor_unique hj hi
    have hbelow := (hshaped.mem_ancestors_iff b j).1 habove
    have hfull := (get?_outline b).symm.trans hblock
    have hlt := line_lt_of_mem_ancestors hfull hi habove
    obtain ⟨x, hx, rfl⟩ := get?_fullOutline.1 hfull
    have hstands := standsDeeper_of_below hx hy hbelow fun k z hz hbelow' => by
      rw [(node_spec hx).2, (node_spec hz).2]
      exact hdeeper k _ (standsFor_iff.2 ⟨z, hz, rfl⟩) ((hshaped.mem_ancestors_iff b k).2 hbelow')
    exact (mem_blockLines_iff hn).2 ⟨hlt, hstands⟩

/-- **No line is lost or used twice.**  A line that is not blank is compiled, dropped, or raw input
of one text block, and only one of these, if it is written deeper than the text blocks above it.  So
is everything below a text block that is not itself written deeper than it stands in the outline.

The source of a text block that is reached is made of the lines it is handed.  If everything below
it is written deeper than it, these are the lines that have been taken out below it. -/
theorem line_used_once (w : CodeWriter) :
    (∀ n, w.hasContent n = true → w.DeeperThanBlocks n → ∃! use, w.IsUsed n use) ∧
    ∀ b ∈ w.outline.preorder, ∀ block, w.outline.get? b = some block →
      block.kind.isTextBlock = true →
      (w.writtenDepth block.line = w.fullOutline.depth b →
        ∀ i n, StandsFor w.fullOutline i n → b ∈ w.fullOutline.ancestors i →
          w.StandsDeeper block.line n) ∧
      w.blockSource block
        = Text.join "\n" (((w.blockLines block).map fun n =>
            w.settings.indent.strip (w.writtenDepth block.line + 1)
              (w.lineText n)).reverse.dropWhile Text.isBlankText).reverse ∧
      ((∀ i n, StandsFor w.fullOutline i n → b ∈ w.fullOutline.ancestors i →
          w.writtenDepth block.line < w.writtenDepth n) →
        ∀ n, w.hasContent n = true →
          (n ∈ w.blockLines block ↔ ∃ i, StandsFor w.fullOutline i n ∧
            b ∈ w.fullOutline.ancestors i ∧ i ∉ w.outline.preorder)) := by
  refine ⟨fun n => existsUnique_isUsed, fun b hreached block hblock htext => ⟨?_, ?_, ?_⟩⟩
  · exact fun hdepth i n => standsDeeper_of_depth_eq hblock hdepth
  · exact blockSource_eq ((get?_outline b).symm.trans hblock)
  · exact fun hdeeper n => mem_blockLines_iff_of_deeper hreached hblock htext hdeeper

/-- A writer for lines, with everything else as it is when nothing is asked for. -/
def ofLines (lines : List String) : CodeWriter :=
  ⟨.standard, .empty, lines.map fun line => ⟨line.toList, none⟩⟩

/-- Lines of all uses: a text block with a blank line and a deeper line in it, and another text
block that is commented out. -/
def mixedLines : CodeWriter :=
  ofLines ["%ul", "\t:sass", "\t\ta", "", "\t\t\t:top 0", "\t// note", "\t\t:sass", "\t\t\tb",
    "\tc"]

theorem line_used_once_mixedLines :
    (mixedLines.hasContent 5 = true ∧ mixedLines.DeeperThanBlocks 5 ∧
      ∃! use, mixedLines.IsUsed 5 use) ∧
    ∃ block, mixedLines.outline.get? 1 = some block ∧ block.kind.isTextBlock = true ∧
      mixedLines.writtenDepth block.line = mixedLines.fullOutline.depth 1 ∧
      mixedLines.blockSource block = "a\n\n\t:top 0".toList ∧
      ∀ n, mixedLines.hasContent n = true →
        (n ∈ mixedLines.blockLines block ↔ ∃ i, StandsFor mixedLines.fullOutline i n ∧
          1 ∈ mixedLines.fullOutline.ancestors i ∧ i ∉ mixedLines.outline.preorder) := by
  have hcontent : mixedLines.hasContent 5 = true := by decide +kernel
  have hblocks : ∀ b ∈ mixedLines.outline.preorder, ∀ block ∈ mixedLines.outline.get? b,
      block.kind.isTextBlock = true →
        mixedLines.writtenDepth block.line = mixedLines.fullOutline.depth b := by
    decide +kernel
  have hspec := line_used_once mixedLines
  have hdeeper : mixedLines.DeeperThanBlocks 5 := fun i hi b hbi hreached block hblock htext =>
    (hspec.2 b hreached block hblock htext).1 (hblocks b hreached block hblock htext) i 5 hi hbi
  have hreached : 1 ∈ mixedLines.outline.preorder := by decide +kernel
  have hblock : mixedLines.outline.get? 1 = some ⟨2, ":sass".toList, none⟩ := by decide +kernel
  have htext : (TemplateNode.mk 2 ":sass".toList none).kind.isTextBlock = true := by
    decide +kernel
  have hdepth := hblocks 1 hreached _ hblock htext
  obtain ⟨hstands, hsource, hhanded⟩ := hspec.2 1 hreached _ hblock htext
  refine ⟨⟨hcontent, hdeeper, hspec.1 5 hcontent hdeeper⟩, _, hblock, htext, hdepth, ?_, ?_⟩
  · rw [hsource]
    decide +kernel
  · refine hhanded fun i n hi hbi => ?_
    have hlt := line_lt_of_mem_ancestors ((get?_outline 1).symm.trans hblock) hi hbi
    exact hstands hdepth i n hi hbi n hlt le_rfl (hasContent_of_standsFor hi)

/-- A text block with a comment in it, and a line below the comment. -/
def commentedBlock : CodeWriter := ofLines [":markdown", "\t// note", "\t\ta"]

/-- A text block that is written deeper than it stands. -/
def jumpingBlock : CodeWriter := ofLines ["\t:markdown", "\tfoo"]

/-- The condition is needed, and so is that only what is reached drops lines.  What stands below a
comment in a text block stands below a comment and is raw input.  A text block that is written
deeper than it stands is not handed what is written as deep, although that stands below it. -/
theorem line_used_twice_or_lost :
    (commentedBlock.hasContent 3 = true ∧
      (∃ i, StandsFor commentedBlock.fullOutline i 3 ∧
        ∃ a ∈ commentedBlock.fullOutline.ancestors i, ∃ node,
          commentedBlock.fullOutline.get? a = some node ∧ node.kind.dropsChildren = true) ∧
      ∃! b, commentedBlock.Hands b 3) ∧
    jumpingBlock.hasContent 2 = true ∧
      ¬ (∃ i ∈ jumpingBlock.outline.preorder, StandsFor jumpingBlock.outline i 2) ∧
      ¬ (∃ i, StandsFor jumpingBlock.fullOutline i 2 ∧
        ∃ a ∈ jumpingBlock.fullOutline.ancestors i, ∃ node,
          jumpingBlock.fullOutline.get? a = some node ∧ node.kind.dropsChildren = true) ∧
      ¬ ∃ b, jumpingBlock.Hands b 2 := by
  constructor
  · have hreached : commentedBlock.outline.preorder = [0] := by decide +kernel
    have hblock : commentedBlock.outline.get? 0 = some ⟨1, ":markdown".toList, none⟩ := by
      decide +kernel
    refine ⟨by decide +kernel, ?_, 0, ?_, ?_⟩
    · exact ⟨2, ⟨⟨3, "a".toList, none⟩, by decide +kernel⟩, 1, by decide +kernel,
        ⟨2, "// note".toList, none⟩, by decide +kernel⟩
    · exact ⟨by simp [hreached], _, hblock, by decide +kernel⟩
    · intro b hb
      simpa [hreached] using hb.1
  · have hreached : jumpingBlock.outline.preorder = [0] := by decide +kernel
    have hblock : jumpingBlock.outline.get? 0 = some ⟨1, ":markdown".toList, none⟩ := by
      decide +kernel
    have hfoo : StandsFor jumpingBlock.fullOutline 1 2 :=
      ⟨⟨2, "foo".toList, none⟩, by decide +kernel⟩
    have hancestors : jumpingBlock.fullOutline.ancestors 1 = [0] := by decide +kernel
    refine ⟨by decide +kernel, ?_, ?_, ?_⟩
    · rintro ⟨i, hi, hline⟩
      obtain rfl := standsFor_unique (standsFor_outline.1 hline) hfoo
      simp [hreached] at hi
    · rintro ⟨i, hi, a, ha, node, hnode, hdrops⟩
      obtain rfl := standsFor_unique hi hfoo
      rw [hancestors, List.mem_singleton] at ha
      rw [ha, ← get?_outline, hblock] at hnode
      cases hnode
      revert hdrops
      decide +kernel
    · rintro ⟨b, hb, block, hget, -, hmem⟩
      rw [hreached, List.mem_singleton] at hb
      rw [hb, hblock] at hget
      cases hget
      revert hmem
      decide +kernel

end CodeWriter

end Offside
